import TeenyC.Proofs.Syntax.Expression

/-!
# Spellings that can be read back

A tree has two spellings: its tokens and its C text.  Both can be read back, and for
the same reason: from the start of a spelling one can tell where it ends, given that
what follows cannot continue it.  `chain_decodes` carries this over from the items of a
chain to the chain.
-/

namespace TeenyC.Syntax

/-- The spellings of good items can be read back: where what follows cannot continue
them, the whole tells the item and what follows. -/
def Decodes {α β : Type} (Good : α → Prop) (spell : α → List β) (Stops : List β → Prop) : Prop :=
  ∀ ⦃first second : α⦄ ⦃rest other : List β⦄, Good first → Good second →
    Stops rest → Stops other → spell first ++ rest = spell second ++ other →
    first = second ∧ rest = other

/-! ## Runs -/

/-- A run of items ends at the first item that does not belong to it. -/
theorem run_decodes {β : Type} (belongs : β → Prop) :
    Decodes (fun run : List β => ∀ item ∈ run, belongs item) id
      (fun rest => ∀ item ∈ rest.head?, ¬ belongs item) := by
  intro first second rest other firstGood secondGood restStops otherStops same
  simp only [id] at same
  induction first generalizing second with
  | nil =>
      cases second with
      | nil => exact ⟨rfl, same⟩
      | cons item second =>
          subst same
          exact absurd (secondGood item List.mem_cons_self) (restStops item rfl)
  | cons item first inductionHypothesis =>
      cases second with
      | nil =>
          simp only [List.nil_append] at same
          subst same
          exact absurd (firstGood item List.mem_cons_self) (otherStops item rfl)
      | cons item' second =>
          obtain ⟨rfl, sameTails⟩ := List.cons.inj same
          obtain ⟨rfl, rfl⟩ := inductionHypothesis (List.forall_mem_cons.mp firstGood).2
            (List.forall_mem_cons.mp secondGood).2 sameTails
          exact ⟨rfl, rfl⟩

/-! ## Sequences -/

section Sequences

variable {α β : Type} {Good : α → Prop} {spell : α → List β} {Stops : List β → Prop}

/-- What can follow a sequence of items: what can follow an item and does not start with
another. -/
def EndsSequence (Good : α → Prop) (spell : α → List β) (Stops : List β → Prop)
    (rest : List β) : Prop :=
  Stops rest ∧ ∀ ⦃item : α⦄, Good item → ∀ other, rest ≠ spell item ++ other

/-- A sequence can be read back if its items can, each before the next. -/
theorem sequence_decodes (items : Decodes Good spell Stops)
    (starts : ∀ ⦃item : α⦄ (rest : List β), Good item → Stops (spell item ++ rest)) :
    Decodes (fun sequence : List α => ∀ item ∈ sequence, Good item) (List.flatMap spell)
      (EndsSequence Good spell Stops) := by
  intro first second rest other firstGood secondGood restEnds otherEnds same
  have stops : ∀ {sequence : List α} {after : List β}, (∀ item ∈ sequence, Good item) →
      EndsSequence Good spell Stops after → Stops (sequence.flatMap spell ++ after) := by
    intro sequence after good ends
    cases sequence with
    | nil => exact ends.1
    | cons item sequence =>
        rw [List.flatMap_cons, List.append_assoc]
        exact starts _ (good item List.mem_cons_self)
  induction first generalizing second with
  | nil =>
      cases second with
      | nil => exact ⟨rfl, same⟩
      | cons item second =>
          rw [List.flatMap_cons, List.append_assoc] at same
          exact absurd same (restEnds.2 (secondGood item List.mem_cons_self) _)
  | cons item first inductionHypothesis =>
      cases second with
      | nil =>
          rw [List.flatMap_cons, List.append_assoc] at same
          exact absurd same.symm (otherEnds.2 (firstGood item List.mem_cons_self) _)
      | cons item' second =>
          rcases List.forall_mem_cons.mp firstGood with ⟨itemGood, tailGood⟩
          rcases List.forall_mem_cons.mp secondGood with ⟨itemGood', tailGood'⟩
          simp only [List.flatMap_cons, List.append_assoc] at same
          obtain ⟨rfl, afterItem⟩ := items itemGood itemGood' (stops tailGood restEnds)
            (stops tailGood' otherEnds) same
          obtain ⟨rfl, afterTail⟩ := inductionHypothesis tailGood tailGood' afterItem
          exact ⟨rfl, afterTail⟩

end Sequences

/-! ## Chains -/

section Chains

variable {joins : Kind → Bool} {α β : Type} {Good : α → Prop} {spell : α → List β}
  {operator : Kind → List β} {Stops : List β → Prop}

/-- The spelling of a chain, from those of its items and operators. -/
def spellTail (operator : Kind → List β) (spell : α → List β)
    (tail : List ({ kind : Kind // joins kind = true } × α)) : List β :=
  tail.flatMap fun link => operator link.1 ++ spell link.2

/-- What the operators of a chain have to be: all different, and no part of an item. -/
structure Separates (joins : Kind → Bool) (operator : Kind → List β) (Stops : List β → Prop) :
    Prop where
  distinct : ∀ ⦃first second : Kind⦄ ⦃rest other : List β⦄, joins first = true →
    joins second = true → operator first ++ rest = operator second ++ other →
    first = second ∧ rest = other
  stops : ∀ ⦃kind : Kind⦄ (rest : List β), joins kind = true → Stops (operator kind ++ rest)

/-- What can follow a chain: what can follow an item and is not an operator. -/
def StopsChain (joins : Kind → Bool) (operator : Kind → List β) (Stops : List β → Prop)
    (rest : List β) : Prop :=
  Stops rest ∧ ∀ ⦃kind : Kind⦄, joins kind = true → ∀ other, rest ≠ operator kind ++ other

theorem Separates.stops_tail (separates : Separates joins operator Stops)
    (tail : List ({ kind : Kind // joins kind = true } × α)) {rest : List β}
    (stops : Stops rest) : Stops (spellTail operator spell tail ++ rest) := by
  cases tail with
  | nil => exact stops
  | cons link tail =>
      simp only [spellTail, List.flatMap_cons, List.append_assoc]
      exact separates.stops _ link.1.2

theorem link_decodes (separates : Separates joins operator Stops)
    (items : Decodes Good spell Stops) :
    Decodes (fun link : { kind : Kind // joins kind = true } × α => Good link.2)
      (fun link => operator link.1 ++ spell link.2) Stops := by
  rintro ⟨⟨kind, joined⟩, item⟩ ⟨⟨kind', joined'⟩, item'⟩ rest other itemGood itemGood'
    restStops otherStops same
  simp only [List.append_assoc] at same
  obtain ⟨rfl, afterKind⟩ := separates.distinct joined joined' same
  obtain ⟨rfl, afterItem⟩ := items itemGood itemGood' restStops otherStops afterKind
  exact ⟨rfl, afterItem⟩

theorem tail_decodes (separates : Separates joins operator Stops)
    (items : Decodes Good spell Stops) :
    Decodes (fun tail : List ({ kind : Kind // joins kind = true } × α) =>
        ∀ link ∈ tail, Good link.2)
      (spellTail operator spell) (StopsChain joins operator Stops) := by
  intro first second rest other firstGood secondGood restStops otherStops same
  have ends : ∀ {text : List β}, StopsChain joins operator Stops text →
      EndsSequence (fun link : { kind : Kind // joins kind = true } × α => Good link.2)
        (fun link => operator link.1 ++ spell link.2) Stops text := by
    rintro text ⟨stops, notOperator⟩
    refine ⟨stops, fun link _ after => ?_⟩
    rw [List.append_assoc]
    exact notOperator link.1.2 _
  refine sequence_decodes (link_decodes separates items) ?_ firstGood secondGood
    (ends restStops) (ends otherStops) same
  intro link after _
  rw [List.append_assoc]
  exact separates.stops _ link.1.2

/-- A chain can be read back if its items can. -/
theorem chain_decodes (separates : Separates joins operator Stops)
    (items : Decodes Good spell Stops) :
    Decodes (fun chain : Chain joins α => Good chain.head ∧ ∀ link ∈ chain.tail, Good link.2)
      (fun chain => spell chain.head ++ spellTail operator spell chain.tail)
      (StopsChain joins operator Stops) := by
  rintro ⟨head, tail⟩ ⟨head', tail'⟩ rest other ⟨headGood, tailGood⟩ ⟨headGood', tailGood'⟩
    restStops otherStops same
  simp only [List.append_assoc] at same
  obtain ⟨sameHead, afterHead⟩ := items headGood headGood'
    (separates.stops_tail tail restStops.1) (separates.stops_tail tail' otherStops.1) same
  obtain ⟨sameTail, afterTail⟩ :=
    tail_decodes separates items tailGood tailGood' restStops otherStops afterHead
  subst sameHead sameTail
  exact ⟨rfl, afterTail⟩

end Chains

end TeenyC.Syntax
