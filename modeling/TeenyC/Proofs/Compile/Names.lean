import Mathlib.Data.List.Induction
import TeenyC.Proofs.Compile.Calculus
import TeenyC.Proofs.Syntax.Generator

/-!
# Tables of names

What a session knows of the names of a program, and how the events of the program
change it.  `Admits` says that the tables allow each of a list of events in turn.
Along events that are admitted the tables reflect the events so far, and therefore
a whole program is admitted exactly when the rules for names hold of it, the rule
for jumps aside, which is checked at the end.
-/

namespace TeenyC

open Syntax

namespace Variables

theorem not_declares_ofFunction (function owner name : String) :
    ¬ (ofFunction function).declares owner name = true := by
  simp only [declares, of, ofFunction, List.find?_cons]
  split <;> simp

theorem declares_openFunction (table : Variables) (function owner name : String) :
    (table.openFunction function).declares owner name = true ↔
      owner ≠ function ∧ table.declares owner name = true := by
  simp only [declares, of, openFunction, List.find?_cons]
  by_cases same : function = owner
  · simp [same]
  · have apart := beq_eq_false_iff_ne.mpr same
    simp [apart, Ne.symm same]

theorem functions_openFunction (table : Variables) (function : String) :
    (table.openFunction function).functions = function :: table.functions := rfl

theorem declares_declare {table : Variables} {function : String} (name owner other : String)
    (opened : function ∈ table.functions) :
    (table.declare function name).declares owner other = true ↔
      (owner = function ∧ other = name) ∨ table.declares owner other = true := by
  simp only [declares, of_declare, opened, and_true]
  by_cases same : owner = function
  · simp [same]
  · simp [same]

end Variables

/-- The tables of a session. -/
structure Names where
  table : Variables
  functions : NameSet
  labels : NameSet
  targets : NameSet

namespace Names

/-- The tables before the first statement. -/
def initial : Names :=
  ⟨.ofFunction mainFunction, .empty, .empty, .empty⟩

/-- Whether the tables let an event happen. -/
def Allows (names : Names) (occurrence : Occurrence) : Prop :=
  match occurrence.event with
  | .header name =>
    occurrence.owner = mainFunction ∧ name ≠ mainFunction ∧ ¬ name ∈ names.functions
  | .call name => name ∈ names.functions
  | .label name => ¬ name ∈ names.labels
  | .use name => names.table.declares occurrence.owner name = true
  | .jump _ | .target _ => True

/-- The tables after an event. -/
def record (names : Names) (occurrence : Occurrence) : Names :=
  match occurrence.event with
  | .header name =>
    { names with
      functions := names.functions.insert name
      table := names.table.openFunction name }
  | .label name => { names with labels := names.labels.insert name }
  | .jump name => { names with targets := names.targets.insert name }
  | .target name =>
    if names.table.declares occurrence.owner name = true then names
    else { names with table := names.table.declare occurrence.owner name }
  | .call _ | .use _ => names

/-- The tables after a list of events. -/
def recordAll (names : Names) (occurrences : List Occurrence) : Names :=
  occurrences.foldl record names

/-- The tables let the events of a list happen, one after the other. -/
def Admits (names : Names) : List Occurrence → Prop
  | [] => True
  | occurrence :: rest => names.Allows occurrence ∧ (names.record occurrence).Admits rest

@[simp]
theorem recordAll_nil (names : Names) : names.recordAll [] = names := rfl

@[simp]
theorem recordAll_cons (names : Names) (occurrence : Occurrence) (rest : List Occurrence) :
    names.recordAll (occurrence :: rest) = (names.record occurrence).recordAll rest := rfl

@[simp]
theorem recordAll_append (names : Names) (first second : List Occurrence) :
    names.recordAll (first ++ second) = (names.recordAll first).recordAll second :=
  List.foldl_append

theorem admits_append {names : Names} {first second : List Occurrence} :
    names.Admits (first ++ second) ↔
      names.Admits first ∧ (names.recordAll first).Admits second := by
  induction first generalizing names with
  | nil => simp [Admits]
  | cons occurrence rest inductionHypothesis =>
      simp only [List.cons_append, Admits, recordAll_cons, inductionHypothesis, and_assoc]

/-- Reading variables changes no table. -/
theorem recordAll_uses (names : Names) (owner : String) (read : List String) :
    names.recordAll (within owner (read.map .use)) = names := by
  induction read with
  | nil => rfl
  | cons name rest inductionHypothesis => exact inductionHypothesis

theorem admits_uses {names : Names} {owner : String} {read : List String} :
    names.Admits (within owner (read.map .use)) ↔
      ∀ name ∈ read, names.table.declares owner name = true := by
  induction read with
  | nil => simp [within, Admits]
  | cons name rest inductionHypothesis =>
      simp only [List.mem_cons, forall_eq_or_imp]
      exact and_congr Iff.rfl inductionHypothesis

/-! ## Tables reflect events -/

/-- The tables hold what the events so far have declared. -/
structure Reflects (names : Names) (history : List Occurrence) : Prop where
  functions : ∀ name, name ∈ names.functions ↔ name ∈ headers history
  labels : ∀ name, name ∈ names.labels ↔ name ∈ Syntax.labels history
  targets : ∀ name, name ∈ names.targets ↔ name ∈ jumps history
  declared : ∀ owner name,
    names.table.declares owner name = true ↔ ⟨owner, .target name⟩ ∈ history
  opened : ∀ owner, owner ∈ names.table.functions ↔
    owner = mainFunction ∨ owner ∈ headers history
  owners : ∀ occurrence ∈ history,
    occurrence.owner = mainFunction ∨ occurrence.owner ∈ headers history

theorem reflects_initial : initial.Reflects [] where
  functions := by simp [initial, headers]
  labels := by simp [initial, Syntax.labels]
  targets := by simp [initial, jumps]
  declared := by
    intro owner name
    simp only [initial, List.not_mem_nil, iff_false]
    exact Variables.not_declares_ofFunction mainFunction owner name
  opened := by
    intro owner
    simp [initial, Variables.ofFunction, Variables.functions, headers]
  owners := by simp

theorem mem_functions_record {names : Names} {occurrence : Occurrence} {name : String} :
    name ∈ (names.record occurrence).functions ↔
      name ∈ names.functions ∨ name ∈ headers [occurrence] := by
  rcases occurrence with ⟨owner, event⟩
  cases event <;> simp [record, headers, or_comm]
  split <;> rfl

theorem mem_labels_record {names : Names} {occurrence : Occurrence} {name : String} :
    name ∈ (names.record occurrence).labels ↔
      name ∈ names.labels ∨ name ∈ Syntax.labels [occurrence] := by
  rcases occurrence with ⟨owner, event⟩
  cases event <;> simp [record, Syntax.labels, or_comm]
  split <;> rfl

theorem mem_targets_record {names : Names} {occurrence : Occurrence} {name : String} :
    name ∈ (names.record occurrence).targets ↔
      name ∈ names.targets ∨ name ∈ jumps [occurrence] := by
  rcases occurrence with ⟨owner, event⟩
  cases event <;> simp [record, jumps, or_comm]
  split <;> rfl

theorem mem_table_record {names : Names} {occurrence : Occurrence} {owner : String} :
    owner ∈ (names.record occurrence).table.functions ↔
      owner ∈ names.table.functions ∨ owner ∈ headers [occurrence] := by
  rcases occurrence with ⟨_, event⟩
  cases event <;> simp [record, headers, Variables.functions_openFunction, or_comm]
  split <;> simp

/-- An event makes a variable declared only by being its target, and forgets none
unless it opens a function that has variables already. -/
theorem declares_record {names : Names} {occurrence : Occurrence} {owner name : String}
    (opened : occurrence.owner ∈ names.table.functions)
    (isNew : ∀ function ∈ headers [occurrence], ¬ names.table.declares function name = true) :
    (names.record occurrence).table.declares owner name = true ↔
      names.table.declares owner name = true ∨ ⟨owner, .target name⟩ = occurrence := by
  rcases occurrence with ⟨place, event⟩
  cases event with
  | header function =>
      have unknown := isNew function (by simp [headers])
      simp only [record, Variables.declares_openFunction, Occurrence.mk.injEq, reduceCtorEq,
        and_false, or_false, and_iff_right_iff_imp]
      rintro declared rfl
      exact unknown declared
  | target other =>
      simp only [record, Occurrence.mk.injEq, Event.target.injEq]
      split
      · next declared =>
          refine ⟨.inl, ?_⟩
          rintro (before | ⟨rfl, rfl⟩)
          · exact before
          · exact declared
      · rw [Variables.declares_declare other owner name opened, or_comm]
  | call _ | label _ | jump _ | use _ => simp [record]

/-- An event that is allowed keeps the tables in step, if it happens in the body of
a function that is declared. -/
theorem Reflects.record {names : Names} {history : List Occurrence} {occurrence : Occurrence}
    (reflects : names.Reflects history) (allows : names.Allows occurrence)
    (owned : occurrence.owner = mainFunction ∨ occurrence.owner ∈ headers history) :
    (names.record occurrence).Reflects (history ++ [occurrence]) where
  functions name := by
    rw [mem_functions_record, headers_append, List.mem_append, reflects.functions]
  labels name := by
    rw [mem_labels_record, labels_append, List.mem_append, reflects.labels]
  targets name := by
    rw [mem_targets_record, jumps_append, List.mem_append, reflects.targets]
  declared owner name := by
    have isNew : ∀ function ∈ headers [occurrence],
        ¬ names.table.declares function name = true := by
      intro function isHeader declared
      rcases occurrence with ⟨place, event⟩
      cases event <;> simp [headers] at isHeader
      subst isHeader
      rcases allows with ⟨_, notMain, unknown⟩
      rcases reflects.owners _ ((reflects.declared _ _).mp declared) with isMain | isFunction
      · exact notMain isMain
      · exact unknown ((reflects.functions _).mpr isFunction)
    rw [declares_record ((reflects.opened _).mpr owned) isNew, List.mem_append,
      List.mem_singleton, reflects.declared]
  opened owner := by
    rw [mem_table_record, headers_append, List.mem_append, reflects.opened, or_assoc]
  owners other isIn := by
    rw [headers_append, List.mem_append]
    rcases List.mem_append.mp isIn with isIn | isIn
    · exact (reflects.owners other isIn).imp_right .inl
    · rw [List.mem_singleton.mp isIn]
      exact owned.imp_right .inl

/-! ## The events of a block -/

/-- Each event of a list happens in `main` or in a function that is declared before
it. -/
def Owned (history : List Occurrence) : List Occurrence → Prop
  | [] => True
  | occurrence :: rest =>
    (occurrence.owner = mainFunction ∨ occurrence.owner ∈ headers history) ∧
      Owned (history ++ [occurrence]) rest

theorem owned_append {history first second : List Occurrence} :
    Owned history (first ++ second) ↔ Owned history first ∧ Owned (history ++ first) second := by
  induction first generalizing history with
  | nil => simp [Owned]
  | cons occurrence rest inductionHypothesis =>
      simp [Owned, inductionHypothesis, and_assoc]

theorem opened_append {history : List Occurrence} {owner : String} (more : List Occurrence)
    (opened : owner = mainFunction ∨ owner ∈ headers history) :
    owner = mainFunction ∨ owner ∈ headers (history ++ more) := by
  rw [headers_append, List.mem_append]
  exact opened.imp_right .inl

theorem owned_within {history : List Occurrence} {owner : String} (events : List Event)
    (opened : owner = mainFunction ∨ owner ∈ headers history) :
    Owned history (within owner events) := by
  induction events generalizing history with
  | nil => trivial
  | cons event rest inductionHypothesis =>
      exact ⟨opened, inductionHypothesis (opened_append _ opened)⟩

theorem owned_block {history : List Occurrence} {owner : String} (block : Block)
    (opened : owner = mainFunction ∨ owner ∈ headers history) :
    Owned history (block.occurrences owner) := by
  induction block generalizing history owner with
  | nil => trivial
  | action statement gap rest inductionHypothesis =>
      exact owned_append.mpr
        ⟨owned_within _ opened, inductionHypothesis (opened_append _ opened)⟩
  | function name gap body endGap rest bodyHypothesis restHypothesis =>
      have bodyOpened : name = mainFunction ∨ name ∈ headers (history ++ [⟨owner, .header name⟩]) :=
        .inr (by simp [headers])
      exact ⟨opened, owned_append.mpr ⟨bodyHypothesis bodyOpened,
        restHypothesis (opened_append _ (opened_append _ opened))⟩⟩
  | guarded guard condition gap body endGap rest bodyHypothesis restHypothesis =>
      exact owned_append.mpr ⟨owned_within _ opened, owned_append.mpr
        ⟨bodyHypothesis (opened_append _ opened),
          restHypothesis (opened_append _ (opened_append _ opened))⟩⟩

/-- Events that are admitted keep the tables in step. -/
theorem Reflects.recordAll {names : Names} {history occurrences : List Occurrence}
    (reflects : names.Reflects history) (admits : names.Admits occurrences)
    (owned : Owned history occurrences) :
    (names.recordAll occurrences).Reflects (history ++ occurrences) := by
  induction occurrences generalizing names history with
  | nil => simpa using reflects
  | cons occurrence rest inductionHypothesis =>
      have after := inductionHypothesis (reflects.record admits.1 owned.1) admits.2 owned.2
      simpa using after

/-- A function that is declared holds no functions. -/
theorem Admits.functions_eq_nil {names : Names} {owner : String} {block : Block}
    (admits : names.Admits (block.occurrences owner)) (notMain : owner ≠ mainFunction) :
    block.functions = [] := by
  induction block generalizing names with
  | nil => rfl
  | action statement gap rest inductionHypothesis =>
      exact inductionHypothesis (admits_append.mp admits).2
  | function name gap body endGap rest _ _ => exact absurd admits.1.1 notMain
  | guarded guard condition gap body endGap rest bodyHypothesis restHypothesis =>
      rcases admits_append.mp admits with ⟨_, inside⟩
      rcases admits_append.mp inside with ⟨inBody, inRest⟩
      simp [Block.functions, bodyHypothesis inBody, restHypothesis inRest]

/-- No function that a block declares holds functions. -/
theorem Admits.functions_flat {names : Names} {owner : String} {block : Block}
    (admits : names.Admits (block.occurrences owner)) :
    ∀ function ∈ block.functions, function.2.functions = [] := by
  induction block generalizing names with
  | nil => exact nofun
  | action statement gap rest inductionHypothesis =>
      exact inductionHypothesis (admits_append.mp admits).2
  | function name gap body endGap rest _ restHypothesis =>
      rcases admits with ⟨⟨_, notMain, _⟩, inside⟩
      rcases admits_append.mp inside with ⟨inBody, inRest⟩
      have noneInBody := inBody.functions_eq_nil notMain
      rw [Block.functions, noneInBody]
      exact List.forall_mem_cons.mpr ⟨noneInBody, restHypothesis inRest⟩
  | guarded guard condition gap body endGap rest bodyHypothesis restHypothesis =>
      rcases admits_append.mp admits with ⟨_, inside⟩
      rcases admits_append.mp inside with ⟨inBody, inRest⟩
      exact List.forall_mem_append.mpr ⟨bodyHypothesis inBody, restHypothesis inRest⟩

theorem owner_of_functions_eq_nil {owner : String} {block : Block}
    (noFunctions : block.functions = []) :
    ∀ occurrence ∈ block.occurrences owner, occurrence.owner = owner := by
  induction block with
  | nil => simp [Block.occurrences]
  | action statement gap rest inductionHypothesis =>
      intro occurrence isIn
      rcases List.mem_append.mp isIn with isIn | isIn
      · rcases List.mem_map.mp isIn with ⟨event, _, rfl⟩
        rfl
      · exact inductionHypothesis noFunctions occurrence isIn
  | function name gap body endGap rest _ _ => simp [Block.functions] at noFunctions
  | guarded guard condition gap body endGap rest bodyHypothesis restHypothesis =>
      rcases List.append_eq_nil_iff.mp noFunctions with ⟨noneInBody, noneInRest⟩
      intro occurrence isIn
      rcases List.mem_append.mp isIn with isIn | isIn
      · rcases List.mem_map.mp isIn with ⟨event, _, rfl⟩
        rfl
      · rcases List.mem_append.mp isIn with isIn | isIn
        · exact bodyHypothesis noneInBody occurrence isIn
        · exact restHypothesis noneInRest occurrence isIn

theorem target_mem_within {owner name : String} {statement : Action} :
    ⟨owner, .target name⟩ ∈ within owner statement.events ↔ name ∈ statement.targets := by
  cases statement <;> simp [within, Action.events, Action.targets, eq_comm]

/-- The targets of a block are those in its function. -/
theorem Admits.target_mem_iff {names : Names} {owner name : String} {block : Block}
    (admits : names.Admits (block.occurrences owner)) :
    ⟨owner, .target name⟩ ∈ block.occurrences owner ↔ name ∈ block.targets := by
  induction block generalizing names with
  | nil => simp [Block.occurrences, Block.targets]
  | action statement gap rest inductionHypothesis =>
      rw [Block.occurrences, Block.targets, List.mem_append, List.mem_append, target_mem_within,
        inductionHypothesis (admits_append.mp admits).2]
  | function function gap body endGap rest _ restHypothesis =>
      rcases admits with ⟨⟨isMain, notMain, _⟩, inside⟩
      rcases admits_append.mp inside with ⟨inBody, inRest⟩
      have apart : ¬ (⟨owner, .target name⟩ : Occurrence) ∈ body.occurrences function := by
        intro isIn
        have same := owner_of_functions_eq_nil (inBody.functions_eq_nil notMain) _ isIn
        exact notMain (same.symm.trans isMain)
      simp [Block.occurrences, Block.targets, apart, restHypothesis inRest]
  | guarded guard condition gap body endGap rest bodyHypothesis restHypothesis =>
      rcases admits_append.mp admits with ⟨_, inside⟩
      rcases admits_append.mp inside with ⟨inBody, inRest⟩
      simp [Block.occurrences, Block.targets, within, bodyHypothesis inBody, restHypothesis inRest]

/-! ## Tables in the body of a function -/

/-- The tables reflect the events so far, in the body of a function that is declared
and has had the given targets. -/
structure Knows (names : Names) (owner : String) (history : List Occurrence)
    (earlier : List String) : Prop where
  reflects : names.Reflects history
  opened : owner = mainFunction ∨ owner ∈ headers history
  targeted : ∀ name, ⟨owner, .target name⟩ ∈ history ↔ name ∈ earlier

theorem knows_initial : initial.Knows mainFunction [] [] where
  reflects := reflects_initial
  opened := .inl rfl
  targeted := by simp

section Knows

variable {names : Names} {owner : String} {history : List Occurrence} {earlier : List String}

theorem Knows.declares_iff (knows : names.Knows owner history earlier) (name : String) :
    names.table.declares owner name = true ↔ name ∈ earlier :=
  (knows.reflects.declared owner name).trans (knows.targeted name)

theorem Knows.recordAll (knows : names.Knows owner history earlier)
    {occurrences : List Occurrence} {targets : List String} (admits : names.Admits occurrences)
    (owned : Owned history occurrences)
    (targeted : ∀ name, ⟨owner, .target name⟩ ∈ occurrences ↔ name ∈ targets) :
    (names.recordAll occurrences).Knows owner (history ++ occurrences) (earlier ++ targets) where
  reflects := knows.reflects.recordAll admits owned
  opened := opened_append occurrences knows.opened
  targeted name := by
    rw [List.mem_append, List.mem_append, knows.targeted, targeted]

/-- After statements, the targets in them are known too. -/
theorem Knows.block (knows : names.Knows owner history earlier) {block : Block}
    (admits : names.Admits (block.occurrences owner)) :
    (names.recordAll (block.occurrences owner)).Knows owner
      (history ++ block.occurrences owner) (earlier ++ block.targets) :=
  knows.recordAll admits (owned_block block knows.opened) fun _ => admits.target_mem_iff

/-- A function that has just been declared has no targets. -/
theorem Knows.header (knows : names.Knows owner history earlier) {name : String}
    (allows : names.Allows ⟨owner, .header name⟩) :
    (names.record ⟨owner, .header name⟩).Knows name (history ++ [⟨owner, .header name⟩]) [] where
  reflects := knows.reflects.record allows knows.opened
  opened := .inr (by simp [headers])
  targeted other := by
    rcases allows with ⟨_, notMain, unknown⟩
    simp only [List.mem_append, List.mem_singleton, Occurrence.mk.injEq, reduceCtorEq, and_false,
      or_false, List.not_mem_nil, iff_false]
    intro isTarget
    rcases knows.reflects.owners _ isTarget with isMain | isFunction
    · exact notMain isMain
    · exact unknown ((knows.reflects.functions name).mpr isFunction)

end Knows

/-! ## The rules for names -/

/-- Whether the rules for names let an event happen after others, the rule for jumps
aside. -/
def AllowedAfter (history : List Occurrence) (occurrence : Occurrence) : Prop :=
  match occurrence.event with
  | .header name =>
    occurrence.owner = mainFunction ∧ name ≠ mainFunction ∧ name ∉ headers history
  | .call name => name ∈ headers history
  | .label name => name ∉ Syntax.labels history
  | .use name => ⟨occurrence.owner, .target name⟩ ∈ history
  | .jump _ | .target _ => True

theorem Reflects.allows_iff {names : Names} {history : List Occurrence}
    (reflects : names.Reflects history) (occurrence : Occurrence) :
    names.Allows occurrence ↔ AllowedAfter history occurrence := by
  rcases occurrence with ⟨owner, event⟩
  cases event with
  | header name => simp only [Allows, AllowedAfter, reflects.functions]
  | call name => exact reflects.functions name
  | label name => exact not_congr (reflects.labels name)
  | use name => exact reflects.declared owner name
  | jump _ | target _ => exact Iff.rfl

/-- Tables that reflect the events so far admit those events that the rules let
happen, each after all the others before it. -/
theorem Reflects.admits_iff {names : Names} {history occurrences : List Occurrence}
    (reflects : names.Reflects history) (owned : Owned history occurrences) :
    names.Admits occurrences ↔
      ∀ ⦃before after occurrence⦄, occurrences = before ++ occurrence :: after →
        AllowedAfter (history ++ before) occurrence := by
  induction occurrences generalizing names history with
  | nil => simp [Admits]
  | cons first rest inductionHypothesis =>
      rw [Admits, reflects.allows_iff]
      constructor
      · rintro ⟨allowed, admits⟩ before after occurrence split
        rw [← reflects.allows_iff] at allowed
        have others := (inductionHypothesis (reflects.record allowed owned.1) owned.2).mp admits
        cases before with
        | nil =>
            obtain ⟨rfl, rfl⟩ := List.cons.inj split
            rw [List.append_nil]
            exact (reflects.allows_iff _).mp allowed
        | cons head before =>
            obtain ⟨rfl, splitRest⟩ := List.cons.inj split
            have allowedLater := others splitRest
            rwa [List.append_assoc, List.singleton_append] at allowedLater
      · intro allowed
        have now : AllowedAfter history first := by
          have here := @allowed [] rest first rfl
          rwa [List.append_nil] at here
        refine ⟨now, ?_⟩
        rw [← reflects.allows_iff] at now
        apply (inductionHypothesis (reflects.record now owned.1) owned.2).mpr
        intro before after occurrence split
        rw [List.append_assoc, List.singleton_append]
        exact allowed (congrArg (first :: ·) split)

end Names

/-- The values that are picked from a list are distinct if each is new where it is
picked. -/
theorem nodup_filterMap_iff {α β : Type} {pick : α → Option β} {list : List α} :
    (list.filterMap pick).Nodup ↔
      ∀ ⦃before after item value⦄, list = before ++ item :: after → pick item = some value →
        value ∉ before.filterMap pick := by
  constructor
  · rintro distinct before after item value rfl picked
    rw [List.filterMap_append, List.filterMap_cons_some picked] at distinct
    intro earlier
    exact (List.nodup_append.mp distinct).2.2 value earlier value List.mem_cons_self rfl
  · intro isNew
    induction list using List.reverseRecOn with
    | nil => simp
    | append_singleton list last inductionHypothesis =>
        have distinct : (list.filterMap pick).Nodup := by
          apply inductionHypothesis
          rintro before after item value rfl picked
          exact isNew (List.append_assoc ..) picked
        rw [List.filterMap_append]
        cases picked : pick last with
        | none => simpa [picked] using distinct
        | some value =>
            have fresh := isNew rfl picked
            rw [List.filterMap_cons_some picked, List.filterMap_nil]
            refine List.nodup_append.mpr ⟨distinct, by simp, ?_⟩
            rintro earlier isEarlier other isOther rfl
            rw [List.mem_singleton] at isOther
            exact fresh (isOther ▸ isEarlier)

namespace Syntax

theorem mem_headers_iff {occurrences : List Occurrence} {name : String} :
    name ∈ headers occurrences ↔ ∃ owner, ⟨owner, .header name⟩ ∈ occurrences := by
  simp only [headers, List.mem_filterMap]
  constructor
  · rintro ⟨⟨owner, event⟩, isIn, picked⟩
    cases event <;> simp at picked
    exact ⟨owner, picked ▸ isIn⟩
  · rintro ⟨owner, isIn⟩
    exact ⟨_, isIn, rfl⟩

end Syntax

/-- The rules for names hold of a program exactly when its events are admitted by the
first tables and every jump leads to a label. -/
theorem lawful_iff_admits {occurrences : List Occurrence}
    (owned : Names.Owned [] occurrences) :
    Lawful occurrences ↔
      Names.initial.Admits occurrences ∧
        ∀ name ∈ jumps occurrences, name ∈ Syntax.labels occurrences := by
  rw [Names.reflects_initial.admits_iff owned]
  constructor
  · intro lawful
    refine ⟨?_, fun name isJump => lawful.jumpsDeclared isJump⟩
    rintro before after ⟨owner, event⟩ split
    have isIn : ⟨owner, event⟩ ∈ occurrences := by simp [split]
    cases event with
    | header name =>
        have reserved : name ≠ mainFunction := by
          rintro rfl
          exact lawful.mainReserved (mem_headers_iff.mpr ⟨owner, isIn⟩)
        exact ⟨lawful.functionsOutside isIn, reserved,
          nodup_filterMap_iff.mp lawful.functionsDistinct split rfl⟩
    | call name => exact lawful.callsDeclared split
    | label name => exact nodup_filterMap_iff.mp lawful.labelsDistinct split rfl
    | use name => exact lawful.usesDeclared split
    | jump _ | target _ => trivial
  · rintro ⟨allowed, jumpsDeclared⟩
    refine ⟨?_, ?_, ?_, ?_, ?_, ?_, fun name => jumpsDeclared name⟩
    · intro owner name isIn
      obtain ⟨before, after, split⟩ := List.append_of_mem isIn
      exact (allowed split).1
    · apply nodup_filterMap_iff.mpr
      rintro before after ⟨owner, event⟩ name split picked
      cases event <;> simp at picked
      subst picked
      exact (allowed split).2.2
    · intro isHeader
      rcases mem_headers_iff.mp isHeader with ⟨owner, isIn⟩
      obtain ⟨before, after, split⟩ := List.append_of_mem isIn
      exact (allowed split).2.1 rfl
    · intro before after owner name split
      exact allowed split
    · apply nodup_filterMap_iff.mpr
      rintro before after ⟨owner, event⟩ name split picked
      cases event <;> simp at picked
      subst picked
      exact allowed split
    · intro before after owner name split
      exact allowed split

end TeenyC
