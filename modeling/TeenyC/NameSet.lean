/-!
# Sets of names

A finite set of names, kept as its strictly increasing list.  Two sets with the
same members are equal, and the list is what a summary shows.
-/

namespace TeenyC

/-- A finite set of names. -/
structure NameSet where
  /-- The members in increasing order. -/
  names : List String
  increasing : names.Pairwise (· < ·)
  deriving DecidableEq

namespace NameSet

/-- The set without members. -/
def empty : NameSet := ⟨[], .nil⟩

/-- Whether a name is a member. -/
def contains (set : NameSet) (name : String) : Bool :=
  set.names.contains name

/-! ## Insertion -/

/-- Put a name into an increasing list, unless it is there. -/
def insertName (name : String) : List String → List String
  | [] => [name]
  | other :: rest =>
    if name < other then name :: other :: rest
    else if name = other then other :: rest
    else other :: insertName name rest

theorem mem_insertName {name member : String} {names : List String} :
    member ∈ insertName name names ↔ member = name ∨ member ∈ names := by
  induction names with
  | nil => simp [insertName]
  | cons other rest inductionHypothesis =>
      rw [insertName]
      split
      · simp
      · split
        · next same => simp [same]
        · simp [inductionHypothesis, or_left_comm]

theorem insertName_increasing {name : String} {names : List String}
    (increasing : names.Pairwise (· < ·)) :
    (insertName name names).Pairwise (· < ·) := by
  induction names with
  | nil => simp [insertName]
  | cons other rest inductionHypothesis =>
      rw [List.pairwise_cons] at increasing
      rw [insertName]
      split
      · next before =>
          refine List.pairwise_cons.mpr ⟨?_, List.pairwise_cons.mpr increasing⟩
          intro member isMember
          rcases List.mem_cons.mp isMember with rfl | isMember
          · exact before
          · exact String.lt_trans before (increasing.1 member isMember)
      · next notBefore =>
          split
          · exact List.pairwise_cons.mpr increasing
          · next different =>
              refine List.pairwise_cons.mpr ⟨?_, inductionHypothesis increasing.2⟩
              intro member isMember
              rcases mem_insertName.mp isMember with rfl | isMember
              · apply Decidable.byContradiction
                intro notAfter
                exact different
                  (String.le_antisymm (String.not_lt.mp notAfter) (String.not_lt.mp notBefore))
              · exact increasing.1 member isMember

/-- Add a name to the set. -/
def insert (set : NameSet) (name : String) : NameSet :=
  ⟨insertName name set.names, insertName_increasing set.increasing⟩

/-! ## Membership -/

instance : Membership String NameSet :=
  ⟨fun set name => name ∈ set.names⟩

theorem mem_iff {set : NameSet} {name : String} : name ∈ set ↔ name ∈ set.names :=
  Iff.rfl

@[simp]
theorem not_mem_empty (name : String) : ¬ name ∈ empty := by
  simp [mem_iff, empty]

@[simp]
theorem contains_eq_true_iff {set : NameSet} {name : String} :
    set.contains name = true ↔ name ∈ set := by
  simp [contains, mem_iff]

@[simp]
theorem mem_insert {set : NameSet} {name member : String} :
    member ∈ set.insert name ↔ member = name ∨ member ∈ set :=
  mem_insertName

/-- The least member that another set lacks. -/
def firstNotIn? (set other : NameSet) : Option String :=
  set.names.find? fun name => !other.contains name

end NameSet

end TeenyC
