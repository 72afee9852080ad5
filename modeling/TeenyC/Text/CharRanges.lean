/-!
# Sets of characters given by ranges

Character classes that no arithmetic rule describes are written down as lists of
closed ranges of code points.
-/

namespace TeenyC

/-- A set of characters, as closed ranges of code points. -/
abbrev CharRanges := List (Nat × Nat)

namespace CharRanges

/-- A character belongs to the set when its code point lies in one of the ranges. -/
def contains (ranges : CharRanges) (c : Char) : Bool :=
  ranges.any fun range => Nat.ble range.1 c.toNat && Nat.ble c.toNat range.2

theorem contains_eq_true_iff {ranges : CharRanges} {c : Char} :
    ranges.contains c = true ↔
      ∃ range ∈ ranges, range.1 ≤ c.toNat ∧ c.toNat ≤ range.2 := by
  simp [contains, List.any_eq_true]

end CharRanges

end TeenyC
