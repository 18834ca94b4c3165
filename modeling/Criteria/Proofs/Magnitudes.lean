import Mathlib.Order.Monotone.Basic
import Mathlib.Tactic.Ring
import Criteria.Number.Binary64

/-!
# Magnitudes and their ranks

A rank is written as the blocks before its own spacing sets in and a place behind them
(`unitsOfRank_shift`); the magnitude is then the place, spaced as the blocks say. So the magnitude
after one of a rank is one spacing further (`unitsOfRank_succ`), and magnitudes are in the order of
their ranks. Therefore two numbers are equal iff they stand in one place (`equals_iff`), though
equality does not look at places.
-/

namespace Criteria.Number

/-! ## Magnitudes -/

theorem unitsOfRank_eq (rank : Nat) :
    unitsOfRank rank = (rank - (rank / 2 ^ 52 - 1) * 2 ^ 52) * 2 ^ (rank / 2 ^ 52 - 1) := rfl

/-- The magnitude of a rank given by blocks and a place. At the end of a block the spacing of the
next one may be taken as well. -/
theorem unitsOfRank_shift {shift place : Nat} (hlow : shift = 0 ∨ 2 ^ 52 ≤ place)
    (hhigh : place ≤ 2 ^ 53) : unitsOfRank (shift * 2 ^ 52 + place) = place * 2 ^ shift := by
  rw [unitsOfRank_eq]
  by_cases hend : place = 2 ^ 53
  · -- the first rank of the next block, half as many steps of twice the spacing
    have hblocks : (shift * 2 ^ 52 + place) / 2 ^ 52 - 1 = shift + 1 := by omega
    have hplace : shift * 2 ^ 52 + place - (shift + 1) * 2 ^ 52 = 2 ^ 52 := by omega
    rw [hblocks, hplace, hend, Nat.pow_succ]
    ring
  · have hblocks : (shift * 2 ^ 52 + place) / 2 ^ 52 - 1 = shift := by omega
    rw [hblocks, Nat.add_sub_cancel_left]

/-- One rank further the magnitude is one spacing greater. -/
theorem unitsOfRank_succ (rank : Nat) :
    unitsOfRank (rank + 1) = unitsOfRank rank + 2 ^ (rank / 2 ^ 52 - 1) := by
  obtain ⟨shift, hshift⟩ : ∃ shift, rank / 2 ^ 52 - 1 = shift := ⟨_, rfl⟩
  obtain ⟨place, hplace⟩ : ∃ place, rank = shift * 2 ^ 52 + place :=
    ⟨rank - shift * 2 ^ 52, by omega⟩
  have hlow : shift = 0 ∨ 2 ^ 52 ≤ place := by omega
  have hhigh : place < 2 ^ 53 := by omega
  rw [hshift, hplace, Nat.add_assoc, unitsOfRank_shift (by omega) hhigh,
    unitsOfRank_shift hlow (Nat.le_of_lt hhigh), Nat.succ_mul]

/-- A greater rank has a greater magnitude. -/
theorem unitsOfRank_strictMono : StrictMono unitsOfRank := by
  refine strictMono_nat_of_lt_succ fun rank => ?_
  rw [unitsOfRank_succ]
  exact Nat.lt_add_of_pos_right (Nat.pow_pos (by decide))

theorem unitsOfRank_zero : unitsOfRank 0 = 0 := by
  rw [unitsOfRank_eq]
  rfl

theorem unitsOfRank_eq_zero_iff {rank : Nat} : unitsOfRank rank = 0 ↔ rank = 0 := by
  rw [← unitsOfRank_strictMono.injective.eq_iff (a := rank), unitsOfRank_zero]

/-- No finite magnitude is that of the place of an infinity. -/
theorem unitsOfRank_ne_rankBound (rank : Fin rankBound) :
    unitsOfRank rank ≠ unitsOfRank rankBound :=
  Nat.ne_of_lt (unitsOfRank_strictMono rank.isLt)

/-! ## Places -/

namespace Binary64

/-- Two magnitudes with signs are the same if both parts are, and zero needs no sign. -/
theorem signed_eq_signed_iff {negative negative' : Bool} {units units' : Nat} :
    signed negative units = signed negative' units' ↔
      units = units' ∧ (negative = negative' ∨ units = 0) := by
  cases negative <;> cases negative' <;> simp [signed] <;> omega

/-- Two numbers are equal iff they stand in the same place. -/
theorem equals_iff {x y : Binary64} : x.equals y = true ↔ x ≠ nan ∧ x.place? = y.place? := by
  cases x with
  | nan => simp [equals]
  | infinite negative =>
    cases y with
    | nan => simp [equals, place?]
    | infinite negative' =>
      have hbound : unitsOfRank rankBound ≠ 0 := fun h =>
        absurd (unitsOfRank_eq_zero_iff.mp h) (by decide)
      simp only [equals, place?, beq_iff_eq, ne_eq, reduceCtorEq, not_false_eq_true, true_and,
        Option.some.injEq, signed_eq_signed_iff, hbound, or_false]
    | finite negative' rank' =>
      have hne := (unitsOfRank_ne_rankBound rank').symm
      simp only [equals, place?, Option.some.injEq, signed_eq_signed_iff, hne, false_and,
        and_false, reduceCtorEq]
  | finite negative rank =>
    cases y with
    | nan => simp [equals, place?]
    | infinite negative' =>
      have hne := unitsOfRank_ne_rankBound rank
      simp only [equals, place?, Option.some.injEq, signed_eq_signed_iff, hne, false_and,
        and_false, reduceCtorEq]
    | finite negative' rank' =>
      simp only [equals, place?, Bool.and_eq_true, Bool.or_eq_true, beq_iff_eq, ne_eq,
        reduceCtorEq, not_false_eq_true, true_and, Option.some.injEq, signed_eq_signed_iff,
        unitsOfRank_strictMono.injective.eq_iff, unitsOfRank_eq_zero_iff, Fin.ext_iff]

/-- Only a value that is not a number has no place. -/
theorem place?_eq_none_iff {x : Binary64} : x.place? = none ↔ x = nan := by
  cases x <;> simp [place?]

/-- Two numbers are in no order iff one of them is not a number. -/
theorem compare?_eq_none_iff {x y : Binary64} :
    x.compare? y = none ↔ x = nan ∨ y = nan := by
  rw [← place?_eq_none_iff, ← place?_eq_none_iff, compare?]
  cases x.place? <;> cases y.place? <;> simp

/-- The order calls two numbers equal iff they are. -/
theorem compare?_eq_some_eq_iff {x y : Binary64} :
    x.compare? y = some .eq ↔ x.equals y = true := by
  rw [equals_iff, ne_eq, ← place?_eq_none_iff, compare?]
  cases x.place? <;> cases y.place? <;> simp

/-- A number is equal to itself. -/
theorem compare?_self {x : Binary64} (h : x ≠ nan) : x.compare? x = some .eq :=
  compare?_eq_some_eq_iff.mpr (equals_iff.mpr ⟨h, rfl⟩)

theorem equals_comm (x y : Binary64) : x.equals y = y.equals x := by
  have hswap : ∀ {x y : Binary64}, x.equals y = true → y.equals x = true := by
    intro x y h
    obtain ⟨hx, hplace⟩ := equals_iff.mp h
    refine equals_iff.mpr ⟨?_, hplace.symm⟩
    rw [ne_eq, ← place?_eq_none_iff, ← hplace, place?_eq_none_iff]
    exact hx
  exact Bool.eq_iff_iff.mpr ⟨hswap, hswap⟩

end Binary64

end Criteria.Number
