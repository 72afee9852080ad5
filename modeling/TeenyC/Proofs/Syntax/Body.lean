import TeenyC.Proofs.Syntax.Generator

/-!
# The bodies of functions

What a program does with names, function by function.  Statements come in the order of
the source, with functions declared among them, while the C text has one function after
the other.  Both tell of the same events: the events of a program are those of the bodies
of its functions, `main` being one of them.
-/

namespace TeenyC.Syntax

/-! ## Events of one body -/

/-- What statements do with names in their own function, in the order of their tokens.  Of
a function declared among them only the header counts. -/
def Block.events : Block → List Event
  | nil => []
  | action statement _ rest => statement.events ++ rest.events
  | function name _ _ _ rest => .header name :: rest.events
  | guarded _ condition _ body _ rest =>
    (Phrase.reads condition).map .use ++ (body.events ++ rest.events)

@[simp]
theorem within_append (owner : String) (first second : List Event) :
    within owner (first ++ second) = within owner first ++ within owner second :=
  List.map_append

@[simp]
theorem mem_within_iff {owner : String} {events : List Event} {occurrence : Occurrence} :
    occurrence ∈ within owner events ↔
      occurrence.owner = owner ∧ occurrence.event ∈ events := by
  rcases occurrence with ⟨place, event⟩
  simp only [within, List.mem_map, Occurrence.mk.injEq]
  constructor
  · rintro ⟨_, isIn, rfl, rfl⟩
    exact ⟨rfl, isIn⟩
  · rintro ⟨rfl, isIn⟩
    exact ⟨event, isIn, rfl, rfl⟩

/-- The events of functions, each in its own. -/
def eventsOfBodies (bodies : List (String × Block)) : List Occurrence :=
  bodies.flatMap fun function => within function.1 function.2.events

/-- What statements do with names is what they do in their own function and what the
functions declared among them do. -/
theorem Block.occurrences_perm (owner : String) (block : Block) :
    (block.occurrences owner).Perm
      (within owner block.events ++ eventsOfBodies block.functions) := by
  induction block generalizing owner with
  | nil => exact .nil
  | action statement gap rest inductionHypothesis =>
      rw [occurrences, events, within_append, List.append_assoc]
      exact (inductionHypothesis owner).append_left _
  | function name gap body endGap rest bodyHypothesis restHypothesis =>
      have apart := (bodyHypothesis name).append (restHypothesis owner)
      simp only [occurrences, events, functions, eventsOfBodies, List.flatMap_cons,
        List.flatMap_append, within, List.map_cons, List.cons_append] at apart ⊢
      refine .cons _ (apart.trans ?_)
      rw [← List.append_assoc (List.map _ body.events)]
      exact List.perm_append_comm_assoc _ _ _
  | guarded guard condition gap body endGap rest bodyHypothesis restHypothesis =>
      have apart := (bodyHypothesis owner).append (restHypothesis owner)
      simp only [occurrences, events, functions, eventsOfBodies, List.flatMap_append,
        within_append, List.append_assoc] at apart ⊢
      refine .append_left _ (apart.trans (.append_left _ ?_))
      exact List.perm_append_comm_assoc _ _ _

/-- Events among which there is no header declare no function. -/
theorem headers_within {owner : String} {events : List Event}
    (noHeader : ∀ name, .header name ∉ events) : headers (within owner events) = [] := by
  rw [headers, List.filterMap_eq_nil_iff]
  rintro ⟨place, event⟩ isIn
  cases event with
  | header name => exact absurd (mem_within_iff.mp isIn).2 (noHeader name)
  | call | label | jump | target | use => rfl

theorem Action.headers_events (statement : Action) (owner : String) :
    headers (within owner statement.events) = [] := by
  apply headers_within
  cases statement <;> simp [Action.events]

theorem headers_uses (owner : String) (names : List String) :
    headers (within owner (names.map .use)) = [] :=
  headers_within (by simp)

/-- The functions that statements declare are taken out in the order of their headers. -/
theorem Block.headers_occurrences (owner : String) (block : Block) :
    headers (block.occurrences owner) = block.functions.map (·.1) := by
  induction block generalizing owner with
  | nil => rfl
  | action statement gap rest inductionHypothesis =>
      rw [occurrences, headers_append, inductionHypothesis, statement.headers_events]
      rfl
  | function name gap body endGap rest bodyHypothesis restHypothesis =>
      have split : headers (occurrences owner (function name gap body endGap rest)) =
          name :: headers (body.occurrences name ++ rest.occurrences owner) := rfl
      rw [split, headers_append, bodyHypothesis, restHypothesis, functions, List.map_cons,
        List.map_append]
  | guarded guard condition gap body endGap rest bodyHypothesis restHypothesis =>
      rw [occurrences, headers_append, headers_append, bodyHypothesis, restHypothesis,
        headers_uses, functions, List.map_append, List.nil_append]

/-! ## Programs -/

/-- The functions of a program, each with its body, in the order of the C text. -/
def Program.bodies (program : Program) : List (String × Block) :=
  program.body.functions ++ [(mainFunction, program.body)]

theorem Program.occurrences_perm (program : Program) :
    program.occurrences.Perm (eventsOfBodies program.bodies) := by
  have main : eventsOfBodies program.bodies =
      eventsOfBodies program.body.functions ++ within mainFunction program.body.events := by
    simp [bodies, eventsOfBodies]
  rw [main]
  exact (program.body.occurrences_perm mainFunction).trans List.perm_append_comm

/-- An event happens in a program exactly when it happens in one of its bodies. -/
theorem Program.mem_occurrences_iff {program : Program} {occurrence : Occurrence} :
    occurrence ∈ program.occurrences ↔
      ∃ function ∈ program.bodies, function.1 = occurrence.owner ∧
        occurrence.event ∈ function.2.events := by
  rw [program.occurrences_perm.mem_iff, eventsOfBodies, List.mem_flatMap]
  simp only [mem_within_iff, eq_comm]

/-- Functions are told apart by their names. -/
theorem Lawful.bodies_distinct {program : Program} (lawful : Lawful program.occurrences) :
    (program.bodies.map (·.1)).Nodup := by
  have distinct := lawful.functionsDistinct
  have reserved := lawful.mainReserved
  rw [Program.occurrences, Block.headers_occurrences] at distinct reserved
  rw [Program.bodies, List.map_append, List.map_singleton]
  refine List.nodup_append.mpr ⟨distinct, by simp, ?_⟩
  rintro name isFunction other isMain rfl
  rw [List.mem_singleton.mp isMain] at isFunction
  exact reserved isFunction

end TeenyC.Syntax
