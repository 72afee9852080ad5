import TeenyC.Proofs.Syntax.Body

/-!
# The functions of the C text

The function that a line of C text is in is told by the blocks that are open there.  Every
line that the generator writes for a statement is in the function of the statement, and
the lines tell in order what the function does with names: `occurrences_placed` has the
calls, labels and jumps of every function and the first target of each of its variables.
-/

namespace TeenyC.Syntax

/-! ## Open blocks -/

/-- The blocks that are open after a line, the innermost first.  The block of a function
has its name. -/
def Line.reopen (blocks : List (Option String)) : Line → List (Option String)
  | openMain => some mainFunction :: blocks
  | openFunction name => some name :: blocks
  | openGuard _ _ | openScan _ => none :: blocks
  | close => blocks.tail
  | _ => blocks

/-- The blocks that are open after lines. -/
def reopenAll (blocks : List (Option String)) (lines : List Line) : List (Option String) :=
  lines.foldl Line.reopen blocks

/-- The innermost function whose block is open. -/
def enclosing (blocks : List (Option String)) : Option String :=
  blocks.findSome? id

/-- Lines, each with the function that it is in. -/
def placed (blocks : List (Option String)) : List Line → List (Option String × Line)
  | [] => []
  | line :: rest => (enclosing blocks, line) :: placed (line.reopen blocks) rest

@[simp]
theorem reopenAll_nil (blocks : List (Option String)) : reopenAll blocks [] = blocks := rfl

@[simp]
theorem reopenAll_cons (blocks : List (Option String)) (line : Line) (rest : List Line) :
    reopenAll blocks (line :: rest) = reopenAll (line.reopen blocks) rest := rfl

@[simp]
theorem reopenAll_append (blocks : List (Option String)) (first second : List Line) :
    reopenAll blocks (first ++ second) = reopenAll (reopenAll blocks first) second :=
  List.foldl_append

theorem placed_append (blocks : List (Option String)) (first second : List Line) :
    placed blocks (first ++ second) =
      placed blocks first ++ placed (reopenAll blocks first) second := by
  induction first generalizing blocks with
  | nil => rfl
  | cons line rest inductionHypothesis =>
      simp only [List.cons_append, placed, inductionHypothesis, reopenAll_cons]

/-- Placing lines leaves them as they are. -/
theorem map_placed (blocks : List (Option String)) (lines : List Line) :
    (placed blocks lines).map (·.2) = lines := by
  induction lines generalizing blocks with
  | nil => rfl
  | cons line rest inductionHypothesis => exact congrArg (line :: ·) (inductionHypothesis _)

/-- Lines that stay in the function they start in: they close the blocks that they open,
and none of these is the block of a function. -/
structure Stays (lines : List Line) : Prop where
  closed : ∀ blocks, reopenAll blocks lines = blocks
  inside : ∀ blocks, placed blocks lines = lines.map (enclosing blocks, ·)

theorem stays_nil : Stays [] where
  closed _ := rfl
  inside _ := rfl

theorem Stays.append {first second : List Line} (firstStays : Stays first)
    (secondStays : Stays second) : Stays (first ++ second) where
  closed blocks := by rw [reopenAll_append, firstStays.closed, secondStays.closed]
  inside blocks := by
    rw [placed_append, firstStays.closed, firstStays.inside, secondStays.inside,
      List.map_append]

/-- A line that opens and closes no block stays. -/
theorem stays_singleton {line : Line} (level : ∀ blocks, line.reopen blocks = blocks) :
    Stays [line] where
  closed := level
  inside _ := rfl

/-- A block that is not that of a function stays if its lines do. -/
theorem Stays.block {opening : Line} {lines : List Line}
    (opens : ∀ blocks, opening.reopen blocks = none :: blocks) (stays : Stays lines) :
    Stays (opening :: (lines ++ [.close])) where
  closed blocks := by
    rw [reopenAll_cons, reopenAll_append, opens, stays.closed]
    rfl
  inside blocks := by
    simp [placed, placed_append, opens, stays.closed, stays.inside, enclosing]

theorem stays_declaration (earlier : List String) (name : String) :
    Stays (declaration earlier name) := by
  rw [declaration]
  split
  · exact stays_nil
  · exact stays_singleton fun _ => rfl

theorem Action.stays_lines (statement : Action) (earlier : List String) :
    Stays (statement.lines earlier) := by
  cases statement with
  | printText | printValue | call | label | jump => exact stays_singleton fun _ => rfl
  | assign name value =>
      exact (stays_declaration earlier name).append (stays_singleton fun _ => rfl)
  | input name =>
      have inner : Stays [.assign name (.ofNumber "0"), .discard] :=
        .append (stays_singleton fun _ => rfl) (stays_singleton fun _ => rfl)
      exact (stays_declaration earlier name).append (inner.block fun _ => rfl)

/-- The lines of statements stay in the function of the statements. -/
theorem Block.stays_lines (block : Block) (earlier : List String) :
    Stays (block.lines earlier) := by
  induction block generalizing earlier with
  | nil => exact stays_nil
  | action statement gap rest inductionHypothesis =>
      exact (statement.stays_lines earlier).append (inductionHypothesis _)
  | function name gap body endGap rest _ restHypothesis => exact restHypothesis earlier
  | guarded guard condition gap body endGap rest bodyHypothesis restHypothesis =>
      have inner : Stays (.openGuard guard condition :: (body.lines earlier ++ [.close])) :=
        (bodyHypothesis earlier).block fun _ => rfl
      simpa [lines] using inner.append (restHypothesis (earlier ++ body.targets))

/-! ## Events of lines -/

/-- What a line in the body of a function tells that the function does with a name. -/
def Line.event? : Line → Option Event
  | declare name => some (.target name)
  | call name => some (.call name)
  | label name => some (.label name)
  | jump name => some (.jump name)
  | _ => none

/-- The targets among events. -/
def targetsOf (events : List Event) : List String :=
  events.filterMap fun event =>
    match event with
    | .target name => some name
    | _ => none

/-- The events that have a line for them, given earlier targets: calls, labels, jumps, and
the first target of each variable. -/
def announced (earlier : List String) : List Event → List Event
  | [] => []
  | .target name :: rest =>
    (if name ∈ earlier then [] else [.target name]) ++ announced (earlier ++ [name]) rest
  | .header _ :: rest => announced earlier rest
  | .use _ :: rest => announced earlier rest
  | event :: rest => event :: announced earlier rest

theorem announced_append (earlier : List String) (first second : List Event) :
    announced earlier (first ++ second) =
      announced earlier first ++ announced (earlier ++ targetsOf first) second := by
  induction first generalizing earlier with
  | nil => simp [announced, targetsOf]
  | cons event rest inductionHypothesis =>
      cases event <;> simp [announced, inductionHypothesis, targetsOf]

@[simp]
theorem announced_uses (earlier read : List String) : announced earlier (read.map .use) = [] := by
  induction read with
  | nil => rfl
  | cons name rest inductionHypothesis => exact inductionHypothesis

@[simp]
theorem targetsOf_append (first second : List Event) :
    targetsOf (first ++ second) = targetsOf first ++ targetsOf second :=
  List.filterMap_append

@[simp]
theorem targetsOf_uses (read : List String) : targetsOf (read.map .use) = [] := by
  simp [targetsOf]

theorem Action.targetsOf_events (statement : Action) :
    targetsOf statement.events = statement.targets := by
  cases statement with
  | assign name value =>
      rw [events, ← List.singleton_append, targetsOf_append, targetsOf_uses]
      rfl
  | printValue value => exact targetsOf_uses _
  | printText | call | label | jump | input => rfl

theorem Block.targetsOf_events (block : Block) : targetsOf block.events = block.targets := by
  induction block with
  | nil => rfl
  | action statement gap rest inductionHypothesis =>
      rw [events, targetsOf_append, Action.targetsOf_events, inductionHypothesis, targets]
  | function name gap body endGap rest _ restHypothesis => exact restHypothesis
  | guarded guard condition gap body endGap rest bodyHypothesis restHypothesis =>
      rw [events, targetsOf_append, targetsOf_append, targetsOf_uses, bodyHypothesis,
        restHypothesis, targets, List.nil_append]

theorem Action.events_lines (statement : Action) (earlier : List String) :
    (statement.lines earlier).filterMap Line.event? = announced earlier statement.events := by
  cases statement with
  | printText | call | label | jump => rfl
  | printValue value => exact (announced_uses earlier _).symm
  | assign name value | input name =>
      by_cases known : name ∈ earlier <;>
        simp [lines, declaration, known, Line.event?, events, announced]

/-- The lines of statements tell in order what the statements do with names. -/
theorem Block.events_lines (block : Block) (earlier : List String) :
    (block.lines earlier).filterMap Line.event? = announced earlier block.events := by
  induction block generalizing earlier with
  | nil => rfl
  | action statement gap rest inductionHypothesis =>
      rw [lines, List.filterMap_append, Action.events_lines, inductionHypothesis, events,
        announced_append, Action.targetsOf_events]
  | function name gap body endGap rest _ restHypothesis => exact restHypothesis earlier
  | guarded guard condition gap body endGap rest bodyHypothesis restHypothesis =>
      have heads : ∀ others : List Line,
          (Line.openGuard guard condition :: others).filterMap Line.event? =
            others.filterMap Line.event? := fun _ => rfl
      have closes : ∀ others : List Line,
          (Line.close :: others).filterMap Line.event? = others.filterMap Line.event? :=
        fun _ => rfl
      rw [lines, List.cons_append, heads, List.filterMap_append, closes, bodyHypothesis,
        restHypothesis, events, announced_append, announced_uses, targetsOf_uses,
        List.append_nil, List.nil_append, announced_append, Block.targetsOf_events]

/-! ## What is announced -/

theorem announced_sublist (earlier : List String) (events : List Event) :
    (announced earlier events).Sublist events := by
  induction events generalizing earlier with
  | nil => exact .slnil
  | cons event rest inductionHypothesis =>
      cases event with
      | target name =>
          rw [announced]
          split
          · exact (inductionHypothesis _).cons _
          · exact (inductionHypothesis _).cons_cons _
      | header | use => exact (inductionHypothesis _).cons _
      | call | label | jump => exact (inductionHypothesis _).cons_cons _

/-- The events that have a line for them each time: calls, labels and jumps. -/
def Event.isTransfer : Event → Bool
  | call _ | label _ | jump _ => true
  | _ => false

theorem mem_announced_iff {earlier : List String} {events : List Event} {event : Event}
    (isTransfer : event.isTransfer = true) :
    event ∈ announced earlier events ↔ event ∈ events := by
  refine ⟨(announced_sublist earlier events).mem, ?_⟩
  intro isIn
  induction events generalizing earlier with
  | nil => contradiction
  | cons first rest inductionHypothesis =>
      rcases List.mem_cons.mp isIn with rfl | isIn
      · cases event <;> first | contradiction | exact List.mem_cons_self
      · have later := fun earlier => @inductionHypothesis earlier isIn
        cases first with
        | target name => exact List.mem_append_right _ (later _)
        | header | use => exact later _
        | call | label | jump => exact List.mem_cons_of_mem _ (later _)

/-- A variable is announced where it becomes a target, unless it has been one. -/
theorem target_mem_announced_iff {earlier : List String} {events : List Event} {name : String} :
    .target name ∈ announced earlier events ↔ name ∉ earlier ∧ .target name ∈ events := by
  induction events generalizing earlier with
  | nil => simp [announced]
  | cons event rest inductionHypothesis =>
      cases event with
      | target other =>
          by_cases same : name = other
          · subst same
            by_cases known : name ∈ earlier <;> simp [announced, known, inductionHypothesis]
          · by_cases known : other ∈ earlier <;>
              simp [announced, known, inductionHypothesis, same]
      | header | use | call | label | jump => simp [announced, inductionHypothesis]

/-! ## Programs -/

/-- The lines of a function, each with the function that it is in. -/
def placedFunction (function : String × Block) : List (Option String × Line) :=
  (none, .openFunction function.1) ::
    ((function.2.lines []).map (some function.1, ·) ++ [(some function.1, .close)])

theorem placed_functions (functions : List (String × Block)) (rest : List Line) :
    placed [] (functions.flatMap functionLines ++ rest) =
      functions.flatMap placedFunction ++ placed [] rest := by
  induction functions with
  | nil => rfl
  | cons function others inductionHypothesis =>
      have stays := function.2.stays_lines []
      rw [List.flatMap_cons, List.append_assoc, List.flatMap_cons, List.append_assoc,
        ← inductionHypothesis]
      simp [functionLines, placedFunction, placed, placed_append, stays.closed, stays.inside,
        Line.reopen, enclosing]

/-- The lines of a program are in the functions whose bodies they are written for. -/
theorem Program.placed_lines (program : Program) :
    placed [] program.lines =
      (none, .preamble) :: (program.body.functions.flatMap placedFunction ++
        (none, .openMain) :: ((program.body.lines []).map (some mainFunction, ·) ++
          [(some mainFunction, .finish), (some mainFunction, .close)])) := by
  have start : ∀ rest, placed [] (Line.preamble :: rest) = (none, .preamble) :: placed [] rest :=
    fun _ => rfl
  have stays := program.body.stays_lines []
  rw [Program.lines, List.append_assoc, List.cons_append, start, Program.functionLines,
    placed_functions, mainLines_eq_lines]
  simp [placed, placed_append, stays.closed, stays.inside, Line.reopen, enclosing]

/-- Outside all functions there is no line for a statement. -/
theorem Program.event?_outside {program : Program} {line : Line}
    (isIn : (none, line) ∈ placed [] program.lines) : line.event? = none := by
  rw [placed_lines] at isIn
  simp only [placedFunction, List.mem_cons, List.mem_append, List.mem_flatMap, List.mem_map,
    Prod.mk.injEq, reduceCtorEq, false_and, and_false, exists_false, or_false, true_and,
    List.not_mem_nil] at isIn
  rcases isIn with rfl | ⟨_, _, rfl⟩ | rfl <;> rfl

/-- The function that a placed line is in and the event that it tells. -/
def occurrence? : Option String × Line → Option Occurrence
  | (some function, line) => line.event?.map fun event => ⟨function, event⟩
  | (none, _) => none

theorem occurrences_inside (function : String) (lines : List Line) :
    (lines.map (some function, ·)).filterMap occurrence? =
      within function (lines.filterMap Line.event?) := by
  rw [List.filterMap_map, within, List.map_filterMap]
  rfl

theorem occurrences_placedFunction (function : String × Block) :
    (placedFunction function).filterMap occurrence? =
      within function.1 (announced [] function.2.events) := by
  rw [← Block.events_lines, ← occurrences_inside]
  simp [placedFunction, List.filterMap_append, List.filterMap_cons, occurrence?, Line.event?]

/-- The C text tells, function by function, what the bodies of a program do with names. -/
theorem Program.occurrences_placed (program : Program) :
    (placed [] program.lines).filterMap occurrence? =
      program.bodies.flatMap fun function =>
        within function.1 (announced [] function.2.events) := by
  have functions : (program.body.functions.flatMap placedFunction).filterMap occurrence? =
      program.body.functions.flatMap fun function =>
        within function.1 (announced [] function.2.events) := by
    simp only [List.filterMap_flatMap, occurrences_placedFunction]
  rw [placed_lines, bodies, List.flatMap_append, List.flatMap_singleton, ← functions,
    ← Block.events_lines, ← occurrences_inside]
  simp [List.filterMap_append, List.filterMap_cons, occurrence?, Line.event?]

/-- The lines of the C text tell in order what the bodies of a program do with names. -/
theorem Program.events_lines (program : Program) :
    program.lines.filterMap Line.event? =
      program.bodies.flatMap fun function => announced [] function.2.events := by
  have functions : (program.body.functions.flatMap Syntax.functionLines).filterMap Line.event? =
      program.body.functions.flatMap fun function => announced [] function.2.events := by
    simp [List.filterMap_flatMap, Syntax.functionLines, List.filterMap_cons,
      List.filterMap_append, Line.event?, Block.events_lines]
  rw [bodies, List.flatMap_append, List.flatMap_singleton, ← functions, ← Block.events_lines]
  simp [Program.lines, Program.functionLines, mainLines_eq_lines, List.filterMap_cons,
    List.filterMap_append, Line.event?]

/-- No two lines tell the same event. -/
theorem Line.event?_eq_some_iff {line other : Line} {event : Event}
    (tells : line.event? = some event) : other.event? = some event ↔ other = line := by
  refine ⟨?_, fun same => same ▸ tells⟩
  intro otherTells
  cases line <;> simp only [event?, Option.some.injEq, reduceCtorEq] at tells <;>
    subst tells <;> cases other <;> simp_all [event?]

theorem occurrence?_eq_some_iff {line : Line} {event : Event} (tells : line.event? = some event)
    {function : String} (element : Option String × Line) :
    occurrence? element = some ⟨function, event⟩ ↔ element = (some function, line) := by
  rcases element with ⟨place, other⟩
  cases place with
  | none => simp [occurrence?]
  | some place =>
      simp only [occurrence?, Option.map_eq_some_iff, Occurrence.mk.injEq, Prod.mk.injEq,
        Option.some.injEq, ← Line.event?_eq_some_iff tells]
      constructor
      · rintro ⟨_, otherTells, rfl, rfl⟩
        exact ⟨rfl, otherTells⟩
      · rintro ⟨rfl, otherTells⟩
        exact ⟨event, otherTells, rfl, rfl⟩

/-- A line is in a function of the C text exactly when the event that it tells is announced
in the body of that function. -/
theorem Program.mem_placed_iff {program : Program} {function : String} {line : Line}
    {event : Event} (tells : line.event? = some event) :
    (some function, line) ∈ placed [] program.lines ↔
      ∃ body ∈ program.bodies, body.1 = function ∧ event ∈ announced [] body.2.events := by
  have told : (some function, line) ∈ placed [] program.lines ↔
      ⟨function, event⟩ ∈ (placed [] program.lines).filterMap occurrence? := by
    simp only [List.mem_filterMap, occurrence?_eq_some_iff tells, exists_eq_right]
  rw [told, occurrences_placed]
  simp only [List.mem_flatMap, mem_within_iff, eq_comm]

/-- Calls, labels and jumps are in the functions of the C text whose bodies they are in. -/
theorem Program.mem_placed_iff_mem_occurrences {program : Program} {function : String}
    {line : Line} {event : Event} (tells : line.event? = some event)
    (isTransfer : event.isTransfer = true) :
    (some function, line) ∈ placed [] program.lines ↔
      ⟨function, event⟩ ∈ program.occurrences := by
  simp only [mem_placed_iff tells, mem_occurrences_iff, mem_announced_iff isTransfer]

end TeenyC.Syntax
