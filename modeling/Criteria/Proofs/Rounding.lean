import Mathlib.Algebra.Group.Nat.Defs
import Criteria.Number.Rounding

/-!
# Rounding is monotone

A greater quotient is not rounded to a lesser rank (`nearestRank_mono`). Within a block of ranks
that is so because the spacing is the same, and a quotient in a later block has a rank past the end
of the earlier one. So the numbers that are rounded to infinity are those from some number on.
-/

namespace Criteria.Number

/-! ## Rounding to integers -/

theorem div_le_roundHalfEven (num den : Nat) : num / den ≤ roundHalfEven num den := by
  unfold roundHalfEven
  simp only
  split
  · exact Nat.le_refl _
  · split <;> omega

theorem roundHalfEven_le (num den : Nat) : roundHalfEven num den ≤ num / den + 1 := by
  unfold roundHalfEven
  simp only
  split
  · omega
  · split <;> omega

theorem roundHalfEven_mono {num num' : Nat} (den : Nat) (h : num ≤ num') :
    roundHalfEven num den ≤ roundHalfEven num' den := by
  have hfloor : num / den ≤ num' / den := Nat.div_le_div_right h
  by_cases hequal : num / den = num' / den
  · -- above the same integer the greater quotient has the greater rest
    have hrest : num % den ≤ num' % den := by
      have hnum := Nat.div_add_mod num den
      have hnum' := Nat.div_add_mod num' den
      rw [hequal] at hnum
      omega
    unfold roundHalfEven
    simp only
    rw [hequal]
    repeat' split
    all_goals omega
  · have hup := roundHalfEven_le num den
    have hdown := div_le_roundHalfEven num' den
    omega

/-! ## Ranks -/

theorem nearestRank_eq (num den : Nat) :
    nearestRank num den =
      ((num / den).log2 - 52) * 2 ^ 52 +
        roundHalfEven num (den * 2 ^ ((num / den).log2 - 52)) := rfl

theorem log2_sub_eq_zero {quotient : Nat} (h : quotient < 2 ^ 53) : quotient.log2 - 52 = 0 := by
  have hlog : quotient.log2 < 53 := by
    by_cases hzero : quotient = 0
    · rw [hzero]
      decide
    · exact (Nat.log2_lt hzero).mpr h
  omega

/-- Below `2 ^ 53` the spacing is one unit. -/
theorem nearestRank_of_lt {num den : Nat} (h : num / den < 2 ^ 53) :
    nearestRank num den = roundHalfEven num den := by
  rw [nearestRank_eq, log2_sub_eq_zero h]
  simp

/-- What is less than half a unit is rounded to zero. -/
theorem nearestRank_eq_zero {num den : Nat} (h : 2 * num < den) : nearestRank num den = 0 := by
  have hquotient : num / den = 0 := Nat.div_eq_of_lt (by omega)
  have hrest : num % den = num := Nat.mod_eq_of_lt (by omega)
  rw [nearestRank_of_lt (by omega), roundHalfEven, hquotient, hrest, if_pos h]

/-- In steps of the spacing of its block a quotient is less than `2 ^ 53`. -/
theorem shifted_lt (num den : Nat) : num / (den * 2 ^ ((num / den).log2 - 52)) < 2 ^ 53 := by
  have hhigh : num / den < 2 ^ ((num / den).log2 + 1) := Nat.lt_log2_self
  have hexponent : (num / den).log2 + 1 ≤ 53 + ((num / den).log2 - 52) := by omega
  rw [← Nat.div_div_eq_div_mul, Nat.div_lt_iff_lt_mul (Nat.two_pow_pos _), ← Nat.pow_add]
  exact Nat.lt_of_lt_of_le hhigh (Nat.pow_le_pow_right (by decide) hexponent)

/-- In steps of the spacing of its block a quotient is at least `2 ^ 52`, if it is so in units. -/
theorem le_shifted {num den : Nat} (h : 2 ^ 52 ≤ num / den) :
    2 ^ 52 ≤ num / (den * 2 ^ ((num / den).log2 - 52)) := by
  have hne : num / den ≠ 0 := by omega
  have hlog : 52 ≤ (num / den).log2 := (Nat.le_log2 hne).mpr h
  have hexponent : 52 + ((num / den).log2 - 52) = (num / den).log2 := by omega
  rw [← Nat.div_div_eq_div_mul, Nat.le_div_iff_mul_le (Nat.two_pow_pos _), ← Nat.pow_add, hexponent]
  exact Nat.log2_self_le hne

/-- From `2 ^ 52` on the rank is that of the block of the quotient, or the first of the next. -/
theorem nearestRank_bounds (num den : Nat) (h : 2 ^ 52 ≤ num / den) :
    ((num / den).log2 - 52 + 1) * 2 ^ 52 ≤ nearestRank num den ∧
      nearestRank num den ≤ ((num / den).log2 - 52 + 2) * 2 ^ 52 := by
  have hlow := le_shifted h
  have hhigh := shifted_lt num den
  rw [nearestRank_eq]
  generalize (num / den).log2 - 52 = shift at hlow hhigh ⊢
  have hleast := div_le_roundHalfEven num (den * 2 ^ shift)
  have hmost := roundHalfEven_le num (den * 2 ^ shift)
  omega

/-- A greater quotient has no lesser rank. -/
theorem nearestRank_mono {num num' : Nat} (den : Nat) (h : num ≤ num') :
    nearestRank num den ≤ nearestRank num' den := by
  have hquotient : num / den ≤ num' / den := Nat.div_le_div_right h
  by_cases hsmall' : num' / den < 2 ^ 53
  · rw [nearestRank_of_lt hsmall', nearestRank_of_lt (Nat.lt_of_le_of_lt hquotient hsmall')]
    exact roundHalfEven_mono den h
  · have hlog' : 53 ≤ (num' / den).log2 := (Nat.le_log2 (by omega)).mpr (by omega)
    obtain ⟨hleast', -⟩ := nearestRank_bounds num' den (by omega)
    by_cases hsmall : num / den < 2 ^ 53
    · -- the lesser quotient is in the first block, or at its end
      have hmost := roundHalfEven_le num den
      rw [nearestRank_of_lt hsmall]
      omega
    · obtain ⟨-, hmost⟩ := nearestRank_bounds num den (by omega)
      have hlog : (num / den).log2 ≤ (num' / den).log2 :=
        (Nat.le_log2 (by omega)).mpr
          (Nat.le_trans (Nat.log2_self_le (by omega)) hquotient)
      by_cases hblock : (num / den).log2 = (num' / den).log2
      · rw [nearestRank_eq, nearestRank_eq, hblock]
        exact Nat.add_le_add_left (roundHalfEven_mono _ h) _
      · omega

/-! ## The range of the format -/

/-- The ranks of the format end half a unit of the last place above the greatest finite number. -/
theorem nearestRank_lt_rankBound_iff {n : Nat} :
    nearestRank (n * unitsOfOne) 1 < rankBound ↔ n < 2 ^ 1024 - 2 ^ 970 := by
  have hlast : nearestRank ((2 ^ 1024 - 2 ^ 970 - 1) * unitsOfOne) 1 < rankBound := by
    decide +kernel
  have hfirst : rankBound ≤ nearestRank ((2 ^ 1024 - 2 ^ 970) * unitsOfOne) 1 := by
    decide +kernel
  constructor
  · intro h
    rw [← Nat.not_le]
    intro hle
    have := nearestRank_mono 1 (Nat.mul_le_mul_right unitsOfOne hle)
    omega
  · intro h
    have := nearestRank_mono 1 (Nat.mul_le_mul_right unitsOfOne (Nat.le_sub_one_of_lt h))
    omega

/-- The numbers that are not rounded to infinity are those less than half a unit of the last place
above the greatest finite one. -/
theorem Binary64.isFinite_ofNat_iff {n : Nat} :
    (Binary64.ofNat n).isFinite = true ↔ n < 2 ^ 1024 - 2 ^ 970 := by
  rw [← nearestRank_lt_rankBound_iff, ofNat, ofUnits]
  split
  · next h => exact ⟨fun _ => h, fun _ => rfl⟩
  · next h => exact ⟨fun hfinite => absurd hfinite (by simp [isFinite]), fun hlt => absurd hlt h⟩

end Criteria.Number
