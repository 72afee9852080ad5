import TeenyC.Proofs.Compile.OnDemand
import TeenyC.Proofs.Declarations

/-!
# Jumps to unknown labels

A label may be declared behind the jumps to it, in any function and at any depth, so that jumps
are checked behind the last statement only.  No rule for statements reports an unknown label:
whoever hears of one has a program that keeps all other rules for names, and of its unknown
labels the one with the least bytes.
-/

namespace TeenyC

open Syntax

/-! ## Messages -/

/-- A fault is known by its message if that speaks of an unknown label. -/
theorem NameFault.message_eq_iff {fault : NameFault} {name : String} :
    fault.message = "attempting to go to undeclared label: " ++ name ↔
      fault = .unknownLabel name := by
  constructor
  · intro same
    have characters := congrArg String.toList same
    cases fault with
    | unknownLabel other => rw [(String.append_right_inj _).mp same]
    -- The other messages begin with other words.
    | _ => simp [message.eq_def] at characters
  · rintro rfl
    rfl

/-! ## The least name that is missing -/

/-- The name that is found is the least member that the other set lacks. -/
theorem NameSet.firstNotIn?_eq_some_iff {set other : NameSet} {name : String} :
    set.firstNotIn? other = some name ↔
      (name ∈ set ∧ ¬ name ∈ other) ∧ ∀ rival ∈ set, ¬ rival ∈ other → name ≤ rival := by
  have least : ∀ {found : String}, set.firstNotIn? other = some found →
      (found ∈ set ∧ ¬ found ∈ other) ∧ ∀ rival ∈ set, ¬ rival ∈ other → found ≤ rival := by
    intro found isFirst
    rcases List.find?_eq_some_iff_append.mp isFirst with ⟨missing, before, after, split, present⟩
    have increasing := set.increasing
    rw [split] at increasing
    have isMissing : ¬ found ∈ other := by simpa [← contains_eq_true_iff] using missing
    refine ⟨⟨by simp [mem_iff, split], isMissing⟩, ?_⟩
    intro rival isRival rivalMissing
    rw [mem_iff, split] at isRival
    rcases List.mem_append.mp isRival with isBefore | isHere
    · exact absurd (by simpa using present rival isBefore) rivalMissing
    · rcases List.mem_cons.mp isHere with rfl | isAfter
      · exact le_refl rival
      · have rest := (List.pairwise_append.mp increasing).2.1
        exact le_of_lt (List.rel_of_pairwise_cons rest isAfter)
  constructor
  · exact least
  · rintro ⟨⟨isIn, isMissing⟩, isLeast⟩
    cases isFirst : set.firstNotIn? other with
    | none => exact absurd (firstNotIn?_eq_none_iff.mp isFirst name isIn) isMissing
    | some found =>
        rcases least isFirst with ⟨⟨foundIn, foundMissing⟩, foundLeast⟩
        rw [String.le_antisymm (foundLeast name isIn isMissing)
          (isLeast found foundIn foundMissing)]

/-- Names are in the order of their bytes. -/
theorem utf8_le_iff {first second : String} (firstName : IsName first)
    (secondName : IsName second) : utf8 first ≤ utf8 second ↔ first ≤ second := by
  rw [← List.not_lt, ← String.not_lt, not_iff_not]
  constructor
  · intro less
    apply String.not_le.mp
    intro ordered
    rcases lt_or_eq_of_le ordered with before | rfl
    · exact List.lt_asymm less (utf8_lt_of_lt firstName secondName before)
    · exact List.lt_irrefl _ less
  · exact utf8_lt_of_lt secondName firstName

/-! ## All other rules for names -/

namespace Syntax

/-- The event is a jump to a label. -/
def Event.isJump : Event → Bool
  | .jump _ => true
  | _ => false

/-- The events that are no jumps. -/
def withoutJumps (occurrences : List Occurrence) : List Occurrence :=
  occurrences.filter fun occurrence => !occurrence.event.isJump

theorem jumps_withoutJumps (occurrences : List Occurrence) :
    jumps (withoutJumps occurrences) = [] := by
  simp only [jumps, withoutJumps, List.filterMap_eq_nil_iff, List.mem_filter]
  rintro ⟨owner, event⟩ ⟨_, noJump⟩
  cases event <;> first | rfl | contradiction

end Syntax

namespace Names

theorem exists_record_withTargets (names : Names) (targets : NameSet) (occurrence : Occurrence) :
    ∃ others, { names with targets := targets }.record occurrence =
      { names.record occurrence with targets := others } := by
  rcases occurrence with ⟨owner, event⟩
  cases event with
  | jump name => exact ⟨targets.insert name, rfl⟩
  | target name =>
      refine ⟨targets, ?_⟩
      simp only [record]
      split <;> rfl
  | _ => exact ⟨targets, rfl⟩

/-- Jumps are not looked at on the way. -/
theorem admits_withTargets (names : Names) (targets : NameSet) (occurrences : List Occurrence) :
    { names with targets := targets }.Admits occurrences ↔ names.Admits occurrences := by
  induction occurrences generalizing names targets with
  | nil => exact Iff.rfl
  | cons occurrence rest inductionHypothesis =>
      obtain ⟨others, same⟩ := names.exists_record_withTargets targets occurrence
      rw [Admits, Admits, same]
      apply and_congr _ (inductionHypothesis _ others)
      cases occurrence.event <;> exact Iff.rfl

theorem admits_withoutJumps {names : Names} {occurrences : List Occurrence} :
    names.Admits (withoutJumps occurrences) ↔ names.Admits occurrences := by
  induction occurrences generalizing names with
  | nil => exact Iff.rfl
  | cons occurrence rest inductionHypothesis =>
      rcases occurrence with ⟨owner, event⟩
      cases event with
      | jump name =>
          have skipped := (names.admits_withTargets (names.targets.insert name) rest).symm
          exact (inductionHypothesis.trans skipped).trans (and_iff_right trivial).symm
      | _ => exact and_congr Iff.rfl inductionHypothesis

theorem Owned.withoutJumps {history events : List Occurrence} (owned : Owned history events) :
    ∀ other : List Occurrence, headers other = headers history →
      Owned other (Syntax.withoutJumps events) := by
  induction events generalizing history with
  | nil => exact fun _ _ => trivial
  | cons occurrence rest inductionHypothesis =>
      rcases occurrence with ⟨owner, event⟩
      rcases owned with ⟨opened, others⟩
      intro other same
      cases event with
      | jump name =>
          apply inductionHypothesis others
          rw [headers_append, same]
          exact (List.append_nil _).symm
      | _ =>
          refine ⟨by rwa [same], inductionHypothesis others _ ?_⟩
          rw [headers_append, headers_append, same]

end Names

/-- The rules for names, but the one for jumps, are what the tables check on the way. -/
theorem lawful_withoutJumps_iff {occurrences : List Occurrence}
    (owned : Names.Owned [] occurrences) :
    Lawful (withoutJumps occurrences) ↔ Names.initial.Admits occurrences := by
  rw [lawful_iff_admits (owned.withoutJumps [] rfl), Names.admits_withoutJumps,
    jumps_withoutJumps]
  exact and_iff_left nofun

/-! ## Rules do not report unknown labels -/

namespace Rule

variable {α β : Type} {name : String} {session after : Session}

/-- The rule does not fail with an unknown label. -/
def KnowsLabels (rule : Rule α) : Prop :=
  ∀ ⦃session after : Session⦄ ⦃name : String⦄,
    rule session ≠ .error (.semantic (.unknownLabel name)) after

/-- A sequence reports an unknown label only in what follows its first part. -/
theorem KnowsLabels.bind_eq_error_iff {rule : Rule α} {next : α → Rule β}
    (first : KnowsLabels rule) :
    (rule >>= next) session = .error (.semantic (.unknownLabel name)) after ↔
      ∃ value middle, rule session = .ok value middle ∧
        next value middle = .error (.semantic (.unknownLabel name)) after := by
  rw [bind_apply]
  cases run : rule session with
  | ok value middle => simp
  | error error middle =>
      constructor
      · intro same
        cases same
        exact absurd run (@first session _ _)
      · rintro ⟨_, _, impossible, _⟩
        cases impossible

theorem KnowsLabels.bind {rule : Rule α} {next : α → Rule β} (first : KnowsLabels rule)
    (second : ∀ value, KnowsLabels (next value)) : KnowsLabels (rule >>= next) := by
  intro session after name fails
  rcases first.bind_eq_error_iff.mp fails with ⟨value, middle, _, fails⟩
  exact second value fails

theorem knowsLabels_throw {error : Error} (atOnce : error.AtOnce) :
    KnowsLabels (throw error : Rule α) := by
  rintro session after name ⟨⟩
  exact atOnce

theorem knowsLabels_pure (value : α) : KnowsLabels (pure value : Rule α) := by
  rintro session after name ⟨⟩

theorem knowsLabels_get : KnowsLabels get := by
  rintro session after name ⟨⟩

theorem knowsLabels_modify (change : Session → Session) :
    KnowsLabels (modify change : Rule Unit) := by
  rintro session after name ⟨⟩

theorem knowsLabels_shift : KnowsLabels shift := by
  intro session after name fails
  rw [shift] at fails
  split at fails <;> cases fails

theorem knowsLabels_declareVariable (name : String) : KnowsLabels (declareVariable name) := by
  intro session after label fails
  rw [declareVariable_eq] at fails
  cases fails

theorem knowsLabels_inherited : Inherited fun _ rule => KnowsLabels rule where
  pure := knowsLabels_pure
  bind := KnowsLabels.bind
  throw := knowsLabels_throw
  look _ ofNext := knowsLabels_get.bind ofNext
  shift := knowsLabels_shift
  write _ := knowsLabels_modify _
  addLabel _ := knowsLabels_modify _
  addTarget _ := knowsLabels_modify _
  declareVariable := knowsLabels_declareVariable

theorem KnowsLabels.functionDeclaration {inner : Rule Unit} (knows : KnowsLabels inner) :
    KnowsLabels (functionDeclaration inner) :=
  knowsLabels_inherited.functionDeclaration (fun _ ofNext => knowsLabels_get.bind ofNext)
    (fun _ => knowsLabels_modify _) (knowsLabels_modify _) knows

/-- No statement reports an unknown label, however deep its blocks are nested. -/
theorem knowsLabels_statement : KnowsLabels statement :=
  knowsLabels_inherited.statement fun _ => .functionDeclaration

/-! ## The end of a pass -/

theorem finish_eq_error_iff :
    finish session = .error (.semantic (.unknownLabel name)) after ↔
      session.targets.firstNotIn? session.labels = some name ∧ after = session.closeMain := by
  rw [finish_apply]
  cases session.targets.firstNotIn? session.labels with
  | none => simp
  | some found => simp [eq_comm]

/-- A pass reports an unknown label only behind statements that it has taken without a fault. -/
theorem program_eq_error_iff {cursor : Cursor} (valid : cursor.Valid) :
    (∃ after, program (.initial cursor .empty) = .error (.semantic (.unknownLabel name)) after) ↔
      ∃ (program : Program) (place : Cursor),
        cursor.Passes (List.replicate program.leading .newline ++ program.body.tokens) place ∧
        place.current.kind = .endOfInput ∧ Names.initial.Admits program.occurrences ∧
        program.names.targets.firstNotIn? program.names.labels = some name := by
  have opened : (Session.initial cursor .empty).openMain = .initial cursor Session.openUnit :=
    write_preamble cursor
  have loop : KnowsLabels (repeatWhile (fun there => !there.isAt .endOfInput) statement) :=
    knowsLabels_inherited.repeatWhile (fun _ _ _ _ => rfl) knowsLabels_statement
  rw [program_eq, programOver, programBody, opened]
  simp only [knowsLabels_inherited.skipNewlines.bind_eq_error_iff, loop.bind_eq_error_iff,
    finish_eq_error_iff]
  constructor
  · rintro ⟨_, _, _, skipped, _, last, repeated, missing, rfl⟩
    rcases (statements_eq_ok_iff valid).mp ⟨_, _, skipped, repeated⟩ with
      ⟨program, place, passes, atEnd, admits, rfl⟩
    exact ⟨program, place, passes, atEnd, admits, missing⟩
  · rintro ⟨program, place, passes, atEnd, admits, missing⟩
    rcases (statements_eq_ok_iff valid).mpr ⟨program, place, passes, atEnd, admits, rfl⟩ with
      ⟨skipped, start, skips, repeats⟩
    exact ⟨_, skipped, start, skips, (), _, repeats, missing, rfl⟩

end Rule

/-! ## Source texts -/

/-- The labels that are jumped to somewhere and declared nowhere. -/
def unknownLabels (tokens : List Token) : List String :=
  (following .gotoKeyword .identifier tokens).filter
    (· ∉ following .labelKeyword .identifier tokens)

namespace Syntax

variable {program : Program} {name : String}

theorem Program.isName_of_mem_jumps (wellSpelled : WellSpelled program.body.tokens)
    (isJump : name ∈ jumps program.occurrences) : IsName name := by
  rcases List.mem_filterMap.mp isJump with ⟨⟨owner, event⟩, isIn, picked⟩
  cases event <;> simp at picked
  subst picked
  have isPlaced := List.mem_map_of_mem (f := Prod.snd) (jump_placed_iff.mpr isIn)
  rw [map_placed] at isPlaced
  exact lines_wellFormed wellSpelled (.jump _) isPlaced

theorem Program.mem_unknownLabels_iff :
    name ∈ unknownLabels program.tokens ↔
      name ∈ jumps program.occurrences ∧ name ∉ labels program.occurrences := by
  rw [unknownLabels, List.mem_filter, decide_eq_true_iff, program.jumps_eq_following,
    program.labels_eq_following]

/-- The check at the end finds the least unknown label. -/
theorem Program.firstNotIn?_eq_some_iff (wellSpelled : WellSpelled program.body.tokens)
    (admits : Names.initial.Admits program.occurrences) :
    program.names.targets.firstNotIn? program.names.labels = some name ↔
      name ∈ unknownLabels program.tokens ∧
        ∀ rival ∈ unknownLabels program.tokens, utf8 name ≤ utf8 rival := by
  have reflects : program.names.Reflects program.occurrences :=
    Names.reflects_initial.recordAll admits program.owned
  simp only [NameSet.firstNotIn?_eq_some_iff, reflects.targets, reflects.labels,
    mem_unknownLabels_iff, and_imp]
  apply and_congr_right
  rintro ⟨isJump, _⟩
  have isName := isName_of_mem_jumps wellSpelled isJump
  constructor
  · intro least rival isRival isUnknown
    exact (utf8_le_iff isName (isName_of_mem_jumps wellSpelled isRival)).mpr
      (least rival isRival isUnknown)
  · intro least rival isRival isUnknown
    exact (utf8_le_iff isName (isName_of_mem_jumps wellSpelled isRival)).mp
      (least rival isRival isUnknown)

end Syntax

theorem compile_eq_unknownLabel_iff {source name : String} :
    compile source = .error (.semantic (.unknownLabel name)) ↔
      ∃ session, Session.start (.ofString source) .empty = .ok session ∧
        ∃ after, Rule.program session = .error (.semantic (.unknownLabel name)) after := by
  simp only [compile, run]
  cases starts : Session.start (.ofString source) .empty with
  | error error =>
      have begins := Session.start_onlyReads (.ofString source) .empty
      rw [starts] at begins
      rcases begins with ⟨fault, rfl, _⟩
      simp
  | ok session =>
      cases runs : Rule.program session with
      | ok summary after => simp [runs]
      | error error after => simp [runs]

/-- An unknown label is reported exactly for the texts of programs that keep all other rules for
names, and it is the one with the least bytes. -/
theorem compile_reports_unknown_label_iff (source name : String) :
    (∃ fault, compile source = .error (.semantic fault) ∧
        fault.message = "attempting to go to undeclared label: " ++ name) ↔
      ∃ program : Program, tokenize source = .ok program.tokens ∧
        Lawful (withoutJumps program.occurrences) ∧
        name ∈ unknownLabels program.tokens ∧
        ∀ rival ∈ unknownLabels program.tokens, utf8 name ≤ utf8 rival := by
  simp only [NameFault.message_eq_iff, exists_eq_right, compile_eq_unknownLabel_iff,
    Session.start_eq_ok_iff]
  constructor
  · rintro ⟨_, ⟨cursor, heads, rfl⟩, fails⟩
    have valid := heads.valid (Lexer.valid_ofString source)
    rcases (Rule.program_eq_error_iff valid).mp fails with
      ⟨program, place, passes, atEnd, admits, isFirst⟩
    have tokens := tokenize_eq_ok_tokens_iff.mpr ⟨cursor, place, heads, passes, atEnd⟩
    exact ⟨program, tokens, (lawful_withoutJumps_iff program.owned).mpr admits,
      (Program.firstNotIn?_eq_some_iff (wellSpelled_of_tokenize tokens) admits).mp isFirst⟩
  · rintro ⟨program, tokens, lawful, isLeast⟩
    rcases tokenize_eq_ok_tokens_iff.mp tokens with ⟨cursor, place, heads, passes, atEnd⟩
    have valid := heads.valid (Lexer.valid_ofString source)
    have admits := (lawful_withoutJumps_iff program.owned).mp lawful
    exact ⟨_, ⟨cursor, heads, rfl⟩, (Rule.program_eq_error_iff valid).mpr
      ⟨program, place, passes, atEnd, admits,
        (Program.firstNotIn?_eq_some_iff (wellSpelled_of_tokenize tokens) admits).mpr isLeast⟩⟩

/-- Capital letters come first, and a label in a function that is declared later is known. -/
example : compile "goto b
goto Z
goto a
goto c
fn f
label c
end" =
    .error (.semantic (.unknownLabel "Z")) := by
  decide +kernel

end TeenyC
