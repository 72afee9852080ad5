import TeenyC.Proofs.Collision
import TeenyC.Proofs.CText.Lines
import TeenyC.Proofs.Hoisting
import TeenyC.Proofs.Jumps
import TeenyC.Proofs.Lossless
import TeenyC.Proofs.Syntax.Following
import TeenyC.Text.Utf8

/-!
# What a program declares

An artifact names the functions and the labels of its program, each once and in the order of
their bytes.  In the C text every function has one definition and every label one statement, and
a call stands behind the definition of what it calls: functions are written in the order in which
they are declared, before all other statements, and a call to a function that is declared later
is not accepted.
-/

namespace TeenyC

/-! ## The order of names -/

theorem val_lt_of_isWordCharacter {c : Char} (isWord : Lexeme.isWordCharacter c = true) :
    c.val.toNat < 128 := by
  rcases Bool.or_eq_true_iff.mp isWord with isAlphanum | isUnderscore
  · rcases Bool.or_eq_true_iff.mp isAlphanum with isLetter | isDigit
    · rcases Bool.or_eq_true_iff.mp isLetter with isUpper | isLower
      · have upToLast : c.val.toNat ≤ 90 :=
          UInt32.le_iff_toNat_le.mp (of_decide_eq_true isUpper).2
        omega
      · have upToLast : c.val.toNat ≤ 122 :=
          UInt32.le_iff_toNat_le.mp (of_decide_eq_true (Bool.and_eq_true_iff.mp isLower).2)
        omega
    · have upToNine : c.val.toNat ≤ 57 := (Char.isDigit_iff_toNat.mp isDigit).2
      omega
  · rw [eq_of_beq isUnderscore]
    decide

theorem utf8EncodeChar_of_isWordCharacter {c : Char} (isWord : Lexeme.isWordCharacter c = true) :
    String.utf8EncodeChar c = [c.val.toUInt8] := by
  have small := val_lt_of_isWordCharacter isWord
  apply String.utf8EncodeChar_eq_singleton
  rw [Char.utf8Size_eq_one_iff, UInt32.le_iff_toNat_le]
  exact Nat.le_of_lt_succ small

theorem byte_lt {c d : Char} (cWord : Lexeme.isWordCharacter c = true)
    (dWord : Lexeme.isWordCharacter d = true) (less : c < d) :
    c.val.toUInt8 < d.val.toUInt8 := by
  have cSmall := val_lt_of_isWordCharacter cWord
  have dSmall := val_lt_of_isWordCharacter dWord
  have values : c.val.toNat < d.val.toNat := less
  rw [UInt8.lt_iff_toNat_lt, UInt32.toNat_toUInt8, UInt32.toNat_toUInt8]
  omega

theorem bytes_lt_of_lt {first second : List Char}
    (firstWords : ∀ c ∈ first, Lexeme.isWordCharacter c = true)
    (secondWords : ∀ c ∈ second, Lexeme.isWordCharacter c = true)
    (less : List.Lex (· < ·) first second) :
    List.Lex (· < ·) (first.flatMap String.utf8EncodeChar)
      (second.flatMap String.utf8EncodeChar) := by
  induction less with
  | nil =>
      have dWord := (List.forall_mem_cons.mp secondWords).1
      rw [List.flatMap_cons, utf8EncodeChar_of_isWordCharacter dWord]
      exact .nil
  | rel less =>
      have cWord := (List.forall_mem_cons.mp firstWords).1
      have dWord := (List.forall_mem_cons.mp secondWords).1
      rw [List.flatMap_cons, List.flatMap_cons, utf8EncodeChar_of_isWordCharacter cWord,
        utf8EncodeChar_of_isWordCharacter dWord]
      exact .rel (byte_lt cWord dWord less)
  | cons less inductionHypothesis =>
      rcases List.forall_mem_cons.mp firstWords with ⟨cWord, firstWords⟩
      rcases List.forall_mem_cons.mp secondWords with ⟨_, secondWords⟩
      rw [List.flatMap_cons, List.flatMap_cons, utf8EncodeChar_of_isWordCharacter cWord]
      exact .cons (inductionHypothesis firstWords secondWords)

/-- Names are ordered as their bytes are. -/
theorem utf8_lt_of_lt {first second : String} (firstName : IsName first)
    (secondName : IsName second) (less : first < second) : utf8 first < utf8 second :=
  bytes_lt_of_lt firstName.isWordCharacter secondName.isWordCharacter
    (String.lt_iff_toList_lt.mp less)

namespace Syntax

/-! ## Definitions -/

variable {program : Program} {name : String}

/-- A function has as many definitions as declarations. -/
theorem Program.count_openFunction (program : Program) (name : String) :
    program.functionLines.count (.openFunction name) =
      (headers program.occurrences).count name := by
  rw [occurrences, Block.headers_occurrences, functionLines]
  induction program.body.functions with
  | nil => rfl
  | cons function rest inductionHypothesis =>
      have inBody : (function.2.lines []).count (.openFunction name) = 0 :=
        List.count_eq_zero.mpr (function.2.openFunction_not_mem_lines [])
      have here : (Syntax.functionLines function).count (.openFunction name) =
          [function.1].count name := by
        simp [Syntax.functionLines, List.count_cons, List.count_append, inBody]
      rw [List.flatMap_cons, List.count_append, here, inductionHypothesis, List.map_cons,
        ← List.count_append, List.singleton_append]

/-- Every function of the list is declared among the events: right behind its header come the
events of its body, and before it the functions that are before it in the list. -/
def DeclaredIn (functions : List (String × Block)) (occurrences : List Occurrence) : Prop :=
  ∀ ⦃before after : List (String × Block)⦄ ⦃name : String⦄ ⦃body : Block⦄,
    functions = before ++ (name, body) :: after →
      ∃ place earlier later,
        occurrences = earlier ++ ⟨place, .header name⟩ :: (body.occurrences name ++ later) ∧
          headers earlier = before.map (·.1)

theorem declaredIn_nil (occurrences : List Occurrence) : DeclaredIn [] occurrences := by
  intro before after name body split
  simp at split

theorem DeclaredIn.append {functions others : List (String × Block)}
    {occurrences more : List Occurrence} (first : DeclaredIn functions occurrences)
    (second : DeclaredIn others more) (all : headers occurrences = functions.map (·.1)) :
    DeclaredIn (functions ++ others) (occurrences ++ more) := by
  intro before after name body split
  rcases append_eq_append_cons split with ⟨rest, inFirst, _⟩ | ⟨start, rfl, inSecond⟩
  · obtain ⟨place, earlier, later, rfl, isBefore⟩ := first inFirst
    exact ⟨place, earlier, later ++ more, by simp, isBefore⟩
  · obtain ⟨place, earlier, later, rfl, isBefore⟩ := second inSecond
    refine ⟨place, occurrences ++ earlier, later, by simp, ?_⟩
    rw [headers_append, all, isBefore, List.map_append]

theorem Block.declaredIn_occurrences (owner : String) (block : Block) :
    DeclaredIn block.functions (block.occurrences owner) := by
  induction block generalizing owner with
  | nil => exact declaredIn_nil _
  | action statement gap rest inductionHypothesis =>
      exact (declaredIn_nil _).append (inductionHypothesis owner) (statement.headers_events owner)
  | function function gap inner endGap rest bodyHypothesis restHypothesis =>
      have inside := (bodyHypothesis function).append (restHypothesis owner)
        (inner.headers_occurrences function)
      intro before after name body split
      -- The function itself comes first, and everything else is declared behind its header.
      cases before with
      | nil =>
          obtain ⟨⟨rfl, rfl⟩, _⟩ := List.cons.inj split
          exact ⟨owner, [], rest.occurrences owner, rfl, rfl⟩
      | cons first before =>
          obtain ⟨rfl, splitInside⟩ := List.cons.inj split
          obtain ⟨place, earlier, later, occurrences, isBefore⟩ := inside splitInside
          refine ⟨place, ⟨owner, .header function⟩ :: earlier, later, ?_, ?_⟩
          · rw [Block.occurrences, occurrences, List.cons_append]
          · rw [List.map_cons, ← isBefore]
            rfl
  | guarded guard condition gap inner endGap rest bodyHypothesis restHypothesis =>
      have inside := (bodyHypothesis owner).append (restHypothesis owner)
        (inner.headers_occurrences owner)
      exact (declaredIn_nil _).append inside (headers_uses owner _)

/-! ## Calls -/

theorem Block.call_mem_lines_iff {block : Block} {earlier : List String} :
    .call name ∈ block.lines earlier ↔ .call name ∈ block.events := by
  have tells : (Line.call name).event? = some (.call name) := rfl
  rw [← @mem_announced_iff earlier _ _ rfl, ← events_lines, List.mem_filterMap]
  simp only [Line.event?_eq_some_iff tells, exists_eq_right]

/-- In the body of a function only that function and functions declared before it are called. -/
theorem Lawful.call_declared (lawful : Lawful program.occurrences)
    {before after : List (String × Block)} {owner : String} {body : Block}
    (split : program.body.functions = before ++ (owner, body) :: after)
    (isCall : .call name ∈ body.events) : name ∈ before.map (·.1) ∨ name = owner := by
  obtain ⟨place, earlier, later, occurrences, isBefore⟩ :=
    program.body.declaredIn_occurrences mainFunction split
  have inBody : ⟨owner, .call name⟩ ∈ body.occurrences owner := by
    rw [(body.occurrences_perm owner).mem_iff]
    exact List.mem_append_left _ (mem_within_iff.mpr ⟨rfl, isCall⟩)
  obtain ⟨start, rest, bodySplit⟩ := List.append_of_mem inBody
  -- A body declares no function, so what is declared before the call is declared before the body.
  have noneInBody : headers start = [] := by
    have flat : body.functions = [] := lawful.flat (owner, body) (by simp [split])
    have whole := body.headers_occurrences owner
    rw [bodySplit, headers_append, flat] at whole
    exact (List.append_eq_nil_iff.mp whole).1
  have callSplit : program.occurrences =
      (earlier ++ ⟨place, .header owner⟩ :: start) ++ ⟨owner, .call name⟩ :: (rest ++ later) := by
    rw [Program.occurrences, occurrences, bodySplit]
    simp
  have declared := lawful.callsDeclared callSplit
  rw [headers_append, isBefore, List.mem_append] at declared
  refine declared.imp_right fun isOwner => ?_
  have onlyOwner : headers (⟨place, .header owner⟩ :: start) = [owner] :=
    congrArg (owner :: ·) noneInBody
  rw [onlyOwner] at isOwner
  exact List.mem_singleton.mp isOwner

/-- A call among the lines of functions is in the body of one of them, behind the lines of those
before it. -/
theorem exists_function_of_call {functions : List (String × Block)} {first rest : List Line}
    (split : functions.flatMap functionLines = first ++ .call name :: rest) :
    ∃ before owner body after inside,
      functions = before ++ (owner, body) :: after ∧
        first = before.flatMap functionLines ++ .openFunction owner :: inside ∧
        .call name ∈ body.events := by
  induction functions generalizing first with
  | nil => simp at split
  | cons function functions inductionHypothesis =>
      rcases function with ⟨owner, body⟩
      rcases append_eq_append_cons split with ⟨others, here, _⟩ | ⟨start, rfl, later⟩
      · cases first with
        | nil => nomatch (List.cons.inj here).1
        | cons line inside =>
            obtain ⟨rfl, _⟩ := List.cons.inj here
            have inBody : body.lines [] ++ [.close] = inside ++ .call name :: others :=
              (List.cons.inj here).2
            have isIn : .call name ∈ body.lines [] ++ [.close] := by simp [inBody]
            have isCall : .call name ∈ body.lines [] := by simpa using isIn
            exact ⟨[], owner, body, functions, inside, rfl, rfl, Block.call_mem_lines_iff.mp isCall⟩
      · obtain ⟨before, inner, innerBody, after, inside, rfl, rfl, isCall⟩ :=
          inductionHypothesis later
        exact ⟨(owner, body) :: before, inner, innerBody, after, inside, rfl, by simp, isCall⟩

theorem Program.exists_occurrence_of_call (isIn : .call name ∈ program.lines) :
    ∃ owner, ⟨owner, .call name⟩ ∈ program.occurrences := by
  rw [← map_placed [] program.lines] at isIn
  obtain ⟨⟨place, line⟩, isPlaced, rfl⟩ := List.mem_map.mp isIn
  cases place with
  | none => nomatch event?_outside isPlaced
  | some owner => exact ⟨owner, (mem_placed_iff_mem_occurrences rfl rfl).mp isPlaced⟩

theorem Program.openFunction_mem_functionLines_iff :
    .openFunction name ∈ program.functionLines ↔ name ∈ headers program.occurrences := by
  rw [← List.count_pos_iff, count_openFunction, List.count_pos_iff]

/-- A call stands behind the definition of what it calls. -/
theorem Lawful.openFunction_before_call (lawful : Lawful program.occurrences)
    {first rest : List Line} (split : program.lines = first ++ .call name :: rest) :
    .openFunction name ∈ first := by
  cases first with
  | nil => nomatch (List.cons.inj split).1
  | cons line first =>
      have isIn : .call name ∈ program.lines := by simp [split]
      rw [Program.lines, List.append_assoc, List.cons_append] at split
      obtain ⟨rfl, afterPreamble⟩ := List.cons.inj split
      apply List.mem_cons_of_mem
      -- The call is among the lines of the functions, or all of these are before it.
      rcases append_eq_append_cons afterPreamble with ⟨others, inFunctions, _⟩ | ⟨start, rfl, _⟩
      · obtain ⟨before, owner, body, after, inside, functions, rfl, isCall⟩ :=
          exists_function_of_call inFunctions
        rcases lawful.call_declared functions isCall with isBefore | rfl
        · obtain ⟨function, isFunction, rfl⟩ := List.mem_map.mp isBefore
          apply List.mem_append_left
          exact List.mem_flatMap.mpr ⟨function, isFunction, List.mem_cons_self⟩
        · exact List.mem_append_right _ List.mem_cons_self
      · obtain ⟨owner, isCall⟩ := Program.exists_occurrence_of_call isIn
        obtain ⟨before, after, occurrences⟩ := List.append_of_mem isCall
        have declared : name ∈ headers program.occurrences := by
          rw [occurrences, headers_append]
          exact List.mem_append_left _ (lawful.callsDeclared occurrences)
        exact List.mem_append_left _ (Program.openFunction_mem_functionLines_iff.mpr declared)

/-! ## Calls as text -/

theorem paren_not_mem_of_isName {other : String} (isName : IsName other) : ')' ∉ other.toList := by
  intro isIn
  exact absurd (isName.isWordCharacter ')' isIn) (by decide)

theorem paren_not_mem_of_good {value : Expression} (good : Good value) :
    ')' ∉ characters value := by
  intro isIn
  exact absurd (expression_characters good ')' isIn) (by decide)

/-- Only a call ends in `();`. -/
theorem Line.eq_call_of_text {line : Line} (wellFormed : line.WellFormed)
    (isCall : line.text = name ++ "();") : line = .call name := by
  have reversed : line.text.toList.reverse = ';' :: ')' :: '(' :: name.toList.reverse := by
    simp [isCall]
  -- A statement ends in what is before its semicolon, and that holds no parenthesis.
  have statement : ∀ {start : List Char}, ')' ∉ start → line.text.toList ≠ start ++ [';'] := by
    intro start apart isText
    rw [isText, List.reverse_append, List.reverse_singleton, List.singleton_append] at reversed
    have isIn : ')' ∈ start.reverse := by simp [(List.cons.inj reversed).2]
    exact apart (List.mem_reverse.mp isIn)
  cases line with
  | call other =>
      have same : other ++ "();" = name ++ "();" := isCall
      rw [String.append_left_inj] at same
      rw [same]
  | declare other =>
      have apart : ')' ∉ "float ".toList ++ other.toList := by
        simp [paren_not_mem_of_isName wellFormed]
      exact absurd (by simp [Line.text.eq_def]) (statement apart)
  | jump other =>
      have apart : ')' ∉ "goto ".toList ++ other.toList := by
        simp [paren_not_mem_of_isName wellFormed]
      exact absurd (by simp [Line.text.eq_def]) (statement apart)
  | assign other value =>
      have apart : ')' ∉ other.toList ++ " = ".toList ++ characters value := by
        simp [paren_not_mem_of_isName wellFormed.1, paren_not_mem_of_good wellFormed.2]
      exact absurd (by simp [Line.text.eq_def, characters]) (statement apart)
  | _ => simp [Line.text.eq_def] at reversed

end Syntax

/-! ## Names in the artifact -/

open Syntax

/-- The names in a summary are those that the tokens declare, in the order of their bytes.  The C
text declares each of them once, in a line of its own, and functions before they are called. -/
structure ReportsNames (tokens : List Token) (unit : CUnit) (summary : Summary) : Prop where
  functionsIncreasing : summary.functions.Pairwise fun name other => utf8 name < utf8 other
  labelsIncreasing : summary.labels.Pairwise fun name other => utf8 name < utf8 other
  functions : ∀ name,
    name ∈ summary.functions ↔ name ∈ following .fnKeyword .identifier tokens
  labels : ∀ name, name ∈ summary.labels ↔ name ∈ following .labelKeyword .identifier tokens
  definedOnce : ∀ name ∈ summary.functions,
    (textLines unit.functions).count ("void " ++ name ++ "() \x7b") = 1
  labelledOnce : ∀ name ∈ summary.labels, (textLines unit.flatten).count (name ++ ":;") = 1
  jumps : ∀ name ∈ following .gotoKeyword .identifier tokens, name ∈ summary.labels
  calls : ∀ ⦃before after : List String⦄ ⦃name : String⦄,
    textLines unit.flatten = before ++ (name ++ "();") :: after →
      "void " ++ name ++ "() \x7b" ∈ before

/-- A set of names is listed in the order of their bytes. -/
theorem NameSet.increasing_utf8 {set : NameSet} (areNames : ∀ name ∈ set, IsName name) :
    set.names.Pairwise fun name other => utf8 name < utf8 other :=
  set.increasing.imp_of_mem fun isName isOther less =>
    utf8_lt_of_lt (areNames _ isName) (areNames _ isOther) less

namespace Syntax

variable {program : Program} {name : String}

theorem Program.functionLines_wellFormed (wellSpelled : WellSpelled program.body.tokens) :
    ∀ line ∈ program.functionLines, line.WellFormed := by
  intro line isIn
  exact Program.lines_wellFormed wellSpelled line (by simp [Program.lines, isIn])

theorem Program.label_mem_lines_of_mem_labels (declared : name ∈ labels program.occurrences) :
    .label name ∈ program.lines := by
  obtain ⟨owner, declared⟩ := mem_labels_iff.mp declared
  exact Program.label_mem_lines declared

theorem Program.isName_of_mem_headers (wellSpelled : WellSpelled program.body.tokens)
    (declared : name ∈ headers program.occurrences) : IsName name :=
  functionLines_wellFormed wellSpelled (.openFunction name)
    (openFunction_mem_functionLines_iff.mpr declared)

theorem Program.isName_of_mem_labels (wellSpelled : WellSpelled program.body.tokens)
    (declared : name ∈ labels program.occurrences) : IsName name :=
  lines_wellFormed wellSpelled (.label name) (label_mem_lines_of_mem_labels declared)

/-- A function has one definition in the text of the functions. -/
theorem Lawful.count_definition (lawful : Lawful program.occurrences)
    (wellSpelled : WellSpelled program.body.tokens)
    (declared : name ∈ headers program.occurrences) :
    (textLines (render program.functionLines)).count ("void " ++ name ++ "() \x7b") = 1 := by
  have lineGood : (Line.openFunction name).WellFormed :=
    Program.isName_of_mem_headers wellSpelled declared
  calc (textLines (render program.functionLines)).count (Line.openFunction name).text
      = program.functionLines.count (.openFunction name) :=
        count_textLines_render (Program.functionLines_wellFormed wellSpelled) lineGood
    _ = (headers program.occurrences).count name := program.count_openFunction name
    _ = 1 := List.count_eq_one_of_mem lawful.functionsDistinct declared

/-- A label has one line in the C text. -/
theorem Lawful.count_label (lawful : Lawful program.occurrences)
    (wellSpelled : WellSpelled program.body.tokens)
    (declared : name ∈ labels program.occurrences) :
    (textLines (render program.lines)).count (name ++ ":;") = 1 := by
  have lineGood : (Line.label name).WellFormed :=
    Program.isName_of_mem_labels wellSpelled declared
  have hasLine := Program.label_mem_lines_of_mem_labels declared
  calc (textLines (render program.lines)).count (Line.label name).text
      = program.lines.count (.label name) :=
        count_textLines_render (Program.lines_wellFormed wellSpelled) lineGood
    _ = 1 := Nat.le_antisymm (lawful.count_label_le_one name) (List.count_pos_iff.mpr hasLine)

/-- In the C text a call stands behind the definition of what it calls. -/
theorem Lawful.definition_before_call (lawful : Lawful program.occurrences)
    (wellSpelled : WellSpelled program.body.tokens) {before after : List String}
    (split : textLines (render program.lines) = before ++ (name ++ "();") :: after) :
    "void " ++ name ++ "() \x7b" ∈ before := by
  have linesGood := Program.lines_wellFormed wellSpelled
  rw [textLines_render linesGood] at split
  obtain ⟨first, others, lines, rfl, isRest⟩ := List.map_eq_append_iff.mp split
  obtain ⟨line, rest, rfl, isCall, rfl⟩ := List.map_eq_cons_iff.mp isRest
  have lineGood := linesGood line (by simp [lines])
  obtain rfl := Line.eq_call_of_text lineGood isCall
  exact List.mem_map_of_mem (lawful.openFunction_before_call lines)

theorem Lawful.reportsNames (lawful : Lawful program.occurrences)
    (wellSpelled : WellSpelled program.body.tokens) {unit : CUnit}
    (functionsText : unit.functions = render program.functionLines)
    (text : unit.flatten = render program.lines) :
    ReportsNames program.tokens unit program.artifact.summary where
  functionsIncreasing := NameSet.increasing_utf8 fun name isIn =>
    Program.isName_of_mem_headers wellSpelled ((lawful.reflects.functions name).mp isIn)
  labelsIncreasing := NameSet.increasing_utf8 fun name isIn =>
    Program.isName_of_mem_labels wellSpelled ((lawful.reflects.labels name).mp isIn)
  functions name := by
    rw [← program.headers_eq_following]
    exact lawful.reflects.functions name
  labels name := by
    rw [← program.labels_eq_following]
    exact lawful.reflects.labels name
  definedOnce name isIn := by
    rw [functionsText]
    exact lawful.count_definition wellSpelled ((lawful.reflects.functions name).mp isIn)
  labelledOnce name isIn := by
    rw [text]
    exact lawful.count_label wellSpelled ((lawful.reflects.labels name).mp isIn)
  jumps name isJump := by
    rw [← program.jumps_eq_following] at isJump
    exact (lawful.reflects.labels name).mpr (lawful.jumpsDeclared isJump)
  calls before after name split := by
    rw [text] at split
    exact lawful.definition_before_call wellSpelled split

end Syntax

theorem Rule.functions_finished (cursor place : Cursor) (program : Program) :
    (finished cursor place program).unit.functions = render program.functionLines := by
  simp [finished, Session.past, Session.advance, Session.initial, Session.openUnit, CUnit.extend,
    CUnit.write, Program.functionLines, render]

/-- A text that compiles is compiled into a unit with the functions of its program. -/
theorem exists_unit_of_compile {source : String} {artifact : Artifact}
    (compiles : compile source = .ok artifact) :
    ∃ (program : Program) (unit : CUnit), tokenize source = .ok program.tokens ∧
      Lawful program.occurrences ∧ artifact = program.artifact ∧
      run (.ofString source) .empty = (.ok artifact.summary, unit) ∧
      unit.functions = render program.functionLines ∧ unit.flatten = artifact.text := by
  rcases compile_eq_ok_iff_program.mp compiles with ⟨session, summary, after, starts, runs, rfl⟩
  obtain ⟨cursor, heads, rfl⟩ := Session.start_eq_ok_iff.mp starts
  have valid := heads.valid (Lexer.valid_ofString source)
  rcases (Rule.program_eq_ok_iff valid).mp runs with
    ⟨program, place, passes, atEnd, lawful, rfl, rfl⟩
  refine ⟨program, (Rule.finished cursor place program).unit,
    tokenize_eq_ok_tokens_iff.mpr ⟨cursor, place, heads, passes, atEnd⟩, lawful, ?_, ?_,
    Rule.functions_finished cursor place program, rfl⟩
  · rw [Rule.flatten_finished]
  · simp only [run, starts, runs]

/-- Whatever compiles has its names reported exactly: the functions and labels in the summary are
those of the source in the order of their bytes, the C text defines each of them once, and no
function is called before its definition. -/
theorem compile_reports_names {source : String} {artifact : Artifact}
    (compiles : compile source = .ok artifact) :
    ∃ tokens unit, tokenize source = .ok tokens ∧
      run (.ofString source) .empty = (.ok artifact.summary, unit) ∧
      artifact.text = unit.flatten ∧ ReportsNames tokens unit artifact.summary := by
  obtain ⟨program, unit, tokens, lawful, rfl, runs, functionsText, text⟩ :=
    exists_unit_of_compile compiles
  exact ⟨program.tokens, unit, tokens, runs, text.symm,
    lawful.reportsNames (wellSpelled_of_tokenize tokens) functionsText text⟩

/-- Two functions that call themselves, the second also the first, and a jump into a function. -/
theorem compile_reports_names_recursive :
    ∃ tokens unit,
      tokenize "fn b\nb\nlabel z\nend\nfn a\nb\na\nend\nlabel y\ngoto z\na" = .ok tokens ∧
      run (.ofString "fn b\nb\nlabel z\nend\nfn a\nb\na\nend\nlabel y\ngoto z\na") .empty =
        (.ok ⟨["a", "b"], ["y", "z"]⟩, unit) ∧
      "#include <stdio.h>\nvoid b() \x7b\nb();\nz:;\n\x7d\nvoid a() \x7b\nb();\na();\n\x7d\n" ++
        "int main() \x7b\ny:;\ngoto z;\na();\nreturn 0;\n\x7d\n" = unit.flatten ∧
      ReportsNames tokens unit ⟨["a", "b"], ["y", "z"]⟩ := by
  have compiles :
      compile "fn b\nb\nlabel z\nend\nfn a\nb\na\nend\nlabel y\ngoto z\na" =
        .ok
          ⟨"#include <stdio.h>\nvoid b() \x7b\nb();\nz:;\n\x7d\nvoid a() \x7b\nb();\na();\n\x7d\n" ++
            "int main() \x7b\ny:;\ngoto z;\na();\nreturn 0;\n\x7d\n",
            ⟨["a", "b"], ["y", "z"]⟩⟩ := by
    decide +kernel
  exact compile_reports_names compiles

end TeenyC
