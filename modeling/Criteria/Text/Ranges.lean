/-!
# Sets of characters given by ranges

A property of characters is written down as a list of closed ranges of code points, and a
character has the property iff one of the ranges holds it. Both classes of characters that rules
depend on, the blank ones and those that make up words, are given in this way.
-/

namespace Criteria.Text

/-- A set of characters: the union of closed ranges of code points. -/
abbrev Ranges := List (Nat × Nat)

/-- The character lies in one of the ranges. -/
def Ranges.has (ranges : Ranges) (c : Char) : Bool :=
  ranges.any fun range => range.1 ≤ c.toNat && c.toNat ≤ range.2

theorem Ranges.has_iff {ranges : Ranges} {c : Char} :
    ranges.has c = true ↔ ∃ range ∈ ranges, range.1 ≤ c.toNat ∧ c.toNat ≤ range.2 := by
  simp [Ranges.has]

/-- No range of the one set meets a range of the other. -/
def Ranges.disjoint (ranges others : Ranges) : Bool :=
  ranges.all fun range => others.all fun other => range.2 < other.1 || other.2 < range.1

/-- A character of the one of two disjoint sets is not in the other. -/
theorem Ranges.not_has_of_disjoint {ranges others : Ranges} {c : Char}
    (hdisjoint : ranges.disjoint others = true) (h : ranges.has c = true) :
    others.has c = false := by
  obtain ⟨range, hrange, hlow, hhigh⟩ := has_iff.1 h
  cases hother : others.has c with
  | false => rfl
  | true =>
    obtain ⟨other, hmem, hlow', hhigh'⟩ := has_iff.1 hother
    simp only [disjoint, List.all_eq_true, Bool.or_eq_true, decide_eq_true_eq] at hdisjoint
    have := hdisjoint range hrange other hmem
    omega

end Criteria.Text
