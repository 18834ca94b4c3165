import Mathlib.Algebra.Order.Ring.Abs
import Mathlib.Data.Rat.Cast.Order
import Mathlib.Tactic.FieldSimp
import Mathlib.Tactic.Linarith
import Criteria.Number.Decimal
import Criteria.Proofs.Magnitudes
import Criteria.Proofs.Rounding

/-!
# Rounding finds the nearest number

What a number has to be to be the nearest one to a magnitude is said without rounding: no other
magnitude of the format is nearer, and where two are as near it is the one with the even rank
(`IsNearestRank`). The ranks go on past those of the format, and a number that gets such a rank is
infinite. There is one such number only (`Binary64.IsNearest.unique`), so whatever finds it finds
the same. A quotient of units is rounded to the nearest number (`Binary64.isNearest_ofUnits`), and
so is a decimal, whatever its exponent (`Decimal.isNearest_toBinary64`).
-/

namespace Criteria.Number

/-! ## Nearest ranks -/

/-- The value of the magnitude of a rank. -/
def valueOfRank (rank : Nat) : ℚ :=
  unitsOfRank rank / unitsOfOne

/-- The rank is that of the magnitude nearest to a value: no other is nearer, and if another is as
near the rank is even. -/
structure IsNearestRank (rank : Nat) (value : ℚ) : Prop where
  nearest : ∀ other, |valueOfRank rank - value| ≤ |valueOfRank other - value|
  even : ∀ other ≠ rank, |valueOfRank other - value| = |valueOfRank rank - value| → Even rank

theorem unitsOfOne_pos : 0 < unitsOfOne := by
  decide +kernel

theorem valueOfRank_strictMono : StrictMono valueOfRank := by
  intro rank other h
  have hunits : (unitsOfRank rank : ℚ) < unitsOfRank other := by
    exact_mod_cast unitsOfRank_strictMono h
  have hone : (0 : ℚ) < unitsOfOne := by exact_mod_cast unitsOfOne_pos
  exact div_lt_div_of_pos_right hunits hone

/-- Between two neighbours it is the nearer one that is nearest of all, and of two that are as near
the even one. -/
theorem isNearestRank_of_between {floor rank : Nat} {value : ℚ}
    (hlow : valueOfRank floor ≤ value) (hhigh : value ≤ valueOfRank (floor + 1))
    (h : rank = floor ∧ value - valueOfRank floor < valueOfRank (floor + 1) - value ∨
      rank = floor + 1 ∧ valueOfRank (floor + 1) - value < value - valueOfRank floor ∨
      rank = floor + floor % 2 ∧
        value - valueOfRank floor = valueOfRank (floor + 1) - value) :
    IsNearestRank rank value := by
  -- any other rank is farther than the neighbour on its side
  have hother : ∀ other, other = floor ∨ other = floor + 1 ∨
      value - valueOfRank floor < |valueOfRank other - value| ∨
      valueOfRank (floor + 1) - value < |valueOfRank other - value| := by
    intro other
    rcases Nat.lt_trichotomy other floor with hlt | heq | hgt
    · have hvalue := valueOfRank_strictMono hlt
      rw [abs_of_nonpos (by linarith)]
      exact .inr (.inr (.inl (by linarith)))
    · exact .inl heq
    · rcases Nat.eq_or_lt_of_le hgt with heq | hgt
      · exact .inr (.inl heq.symm)
      · have hvalue := valueOfRank_strictMono hgt
        rw [abs_of_nonneg (by linarith)]
        exact .inr (.inr (.inr (by linarith)))
  have hfloor : |valueOfRank floor - value| = value - valueOfRank floor := by
    rw [abs_of_nonpos (by linarith), neg_sub]
  have hnext : |valueOfRank (floor + 1) - value| = valueOfRank (floor + 1) - value :=
    abs_of_nonneg (by linarith)
  rcases h with ⟨rfl, hnear⟩ | ⟨rfl, hnear⟩ | ⟨rfl, htie⟩
  · refine ⟨fun other => ?_, fun other hne heq => ?_⟩
    · rcases hother other with rfl | rfl | hfar | hfar <;> linarith
    · rcases hother other with rfl | rfl | hfar | hfar
      · exact absurd rfl hne
      all_goals linarith
  · refine ⟨fun other => ?_, fun other hne heq => ?_⟩
    · rcases hother other with rfl | rfl | hfar | hfar <;> linarith
    · rcases hother other with rfl | rfl | hfar | hfar
      · linarith
      · exact absurd rfl hne
      all_goals linarith
  · have hrank : |valueOfRank (floor + floor % 2) - value| = value - valueOfRank floor := by
      rcases Nat.mod_two_eq_zero_or_one floor with hmod | hmod
      · rw [hmod, Nat.add_zero, hfloor]
      · rw [hmod, hnext, htie]
    refine ⟨fun other => ?_, fun other _ _ => ?_⟩
    · rcases hother other with rfl | rfl | hfar | hfar <;> linarith
    · rw [Nat.even_iff]
      omega

/-- A magnitude of the format is the nearest one to itself. -/
theorem isNearestRank_valueOfRank (rank : Nat) : IsNearestRank rank (valueOfRank rank) := by
  refine ⟨fun other => ?_, fun other hne hequal => ?_⟩
  · rw [sub_self, abs_zero]
    exact abs_nonneg _
  · rw [sub_self, abs_zero, abs_eq_zero, sub_eq_zero] at hequal
    exact absurd (valueOfRank_strictMono.injective hequal) hne

/-- There is one nearest rank only: two that are as near are both even, and then a rank between them
is nearer. -/
theorem IsNearestRank.unique {rank rank' : Nat} {value : ℚ} (h : IsNearestRank rank value)
    (h' : IsNearestRank rank' value) : rank = rank' := by
  by_contra hne
  wlog hlt : rank < rank' generalizing rank rank'
  · exact this h' h (Ne.symm hne) (by omega)
  have hequal : |valueOfRank rank' - value| = |valueOfRank rank - value| :=
    le_antisymm (h'.nearest rank) (h.nearest rank')
  have heven := Nat.even_iff.mp (h.even rank' (Ne.symm hne) hequal)
  have heven' := Nat.even_iff.mp (h'.even rank hne hequal.symm)
  have hlow : valueOfRank rank < valueOfRank (rank + 1) :=
    valueOfRank_strictMono (Nat.lt_succ_self rank)
  have hhigh : valueOfRank (rank + 1) < valueOfRank rank' := valueOfRank_strictMono (by omega)
  -- as near from both sides, the value is halfway
  have hhalf : valueOfRank rank' - value = value - valueOfRank rank := by
    rcases abs_eq_abs.mp hequal with hsame | hopposite
    · linarith
    · linarith
  have hnear : |valueOfRank (rank + 1) - value| < value - valueOfRank rank := by
    rw [abs_lt]
    constructor
    · linarith
    · linarith
  have hfar := h.nearest (rank + 1)
  rw [abs_of_nonpos (by linarith)] at hfar
  linarith

/-! ## Rounded quotients -/

/-- How an integer is rounded depends on how the rest compares with the half of the divisor. -/
theorem roundHalfEven_cases (num den : Nat) :
    (roundHalfEven num den = num / den ∧ 2 * (num % den) < den) ∨
      (roundHalfEven num den = num / den + 1 ∧ den < 2 * (num % den)) ∨
      (roundHalfEven num den = num / den + num / den % 2 ∧ 2 * (num % den) = den) := by
  unfold roundHalfEven
  simp only
  split
  · exact .inl ⟨rfl, by assumption⟩
  · split
    · exact .inr (.inl ⟨rfl, by assumption⟩)
    · exact .inr (.inr ⟨rfl, by omega⟩)

/-- The value of a rank given by blocks and a place. -/
theorem valueOfRank_shift {shift place : Nat} (hlow : shift = 0 ∨ 2 ^ 52 ≤ place)
    (hhigh : place ≤ 2 ^ 53) :
    valueOfRank (shift * 2 ^ 52 + place) = place * 2 ^ shift / unitsOfOne := by
  rw [valueOfRank, unitsOfRank_shift hlow hhigh]
  push_cast
  rfl

/-- Of a quotient that is so many steps of the spacing and a rest, the nearest magnitude is that of
the steps, or the next one, as the rest compares with half a step. -/
theorem isNearestRank_of_division {shift floor rest den rounded : Nat} (hden : 0 < den)
    (hlow : shift = 0 ∨ 2 ^ 52 ≤ floor) (hhigh : floor < 2 ^ 53) (hrest : rest < den * 2 ^ shift)
    (hrounded : (rounded = floor ∧ 2 * rest < den * 2 ^ shift) ∨
      (rounded = floor + 1 ∧ den * 2 ^ shift < 2 * rest) ∨
      (rounded = floor + floor % 2 ∧ 2 * rest = den * 2 ^ shift)) :
    IsNearestRank (shift * 2 ^ 52 + rounded)
      ((den * 2 ^ shift * floor + rest : Nat) / den / unitsOfOne) := by
  have hone : (0 : ℚ) < unitsOfOne := by exact_mod_cast unitsOfOne_pos
  have hden' : (0 : ℚ) < den := by exact_mod_cast hden
  have hscale : (0 : ℚ) < den * unitsOfOne := mul_pos hden' hone
  have hrest' : (rest : ℚ) < den * 2 ^ shift := by exact_mod_cast hrest
  -- the distances to the neighbours are the rest and what is left of a step
  have hbelow : ((den * 2 ^ shift * floor + rest : Nat) / den / unitsOfOne : ℚ) -
      valueOfRank (shift * 2 ^ 52 + floor) = rest / (den * unitsOfOne) := by
    rw [valueOfRank_shift hlow (Nat.le_of_lt hhigh)]
    push_cast
    field_simp
    ring
  have habove : valueOfRank (shift * 2 ^ 52 + (floor + 1)) -
      ((den * 2 ^ shift * floor + rest : Nat) / den / unitsOfOne : ℚ) =
        (den * 2 ^ shift - rest) / (den * unitsOfOne) := by
    rw [valueOfRank_shift (hlow.imp_right fun h => by omega) hhigh]
    push_cast
    field_simp
    ring
  generalize ((den * 2 ^ shift * floor + rest : Nat) / den / unitsOfOne : ℚ) = value
    at hbelow habove ⊢
  have hfloor : valueOfRank (shift * 2 ^ 52 + floor) ≤ value := by
    rw [← sub_nonneg, hbelow]
    exact div_nonneg (Nat.cast_nonneg rest) hscale.le
  have hnext : value ≤ valueOfRank (shift * 2 ^ 52 + floor + 1) := by
    rw [← sub_nonneg, Nat.add_assoc, habove]
    exact div_nonneg (by linarith) hscale.le
  refine isNearestRank_of_between hfloor hnext ?_
  rw [Nat.add_assoc, hbelow, habove, div_lt_div_iff_of_pos_right hscale,
    div_lt_div_iff_of_pos_right hscale, div_left_inj' hscale.ne']
  rcases hrounded with ⟨rfl, hhalf⟩ | ⟨rfl, hhalf⟩ | ⟨rfl, hhalf⟩
  · have hhalf' : (2 * rest : ℚ) < den * 2 ^ shift := by exact_mod_cast hhalf
    exact .inl ⟨rfl, by linarith⟩
  · have hhalf' : (den * 2 ^ shift : ℚ) < 2 * rest := by exact_mod_cast hhalf
    exact .inr (.inl ⟨rfl, by linarith⟩)
  · have hhalf' : (2 * rest : ℚ) = den * 2 ^ shift := by exact_mod_cast hhalf
    exact .inr (.inr ⟨by omega, by linarith⟩)

/-- The rank that a quotient of units is rounded to is nearest to the quotient. -/
theorem isNearestRank_nearestRank (num : Nat) {den : Nat} (hden : 0 < den) :
    IsNearestRank (nearestRank num den) (num / den / unitsOfOne) := by
  rw [nearestRank_eq]
  have hhigh := shifted_lt num den
  have hlow : (num / den).log2 - 52 = 0 ∨
      2 ^ 52 ≤ num / (den * 2 ^ ((num / den).log2 - 52)) := by
    by_cases hsmall : num / den < 2 ^ 53
    · exact .inl (log2_sub_eq_zero hsmall)
    · exact .inr (le_shifted (by omega))
  generalize (num / den).log2 - 52 = shift at hlow hhigh ⊢
  have hstep : 0 < den * 2 ^ shift := by positivity
  have hnearest := isNearestRank_of_division hden hlow hhigh (Nat.mod_lt num hstep)
    (roundHalfEven_cases num (den * 2 ^ shift))
  rwa [Nat.div_add_mod] at hnearest

/-- A magnitude of the format is not changed by rounding. -/
theorem nearestRank_unitsOfRank (rank : Nat) : nearestRank (unitsOfRank rank) 1 = rank := by
  have hnearest := isNearestRank_nearestRank (unitsOfRank rank) Nat.one_pos
  rw [Nat.cast_one, div_one] at hnearest
  exact hnearest.unique (isNearestRank_valueOfRank rank)

namespace Binary64

/-- The number with a sign and a rank. Past the ranks of the format it is infinite. -/
def ofRank (negative : Bool) (rank : Nat) : Binary64 :=
  if h : rank < rankBound then finite negative ⟨rank, h⟩ else infinite negative

/-- The number is the nearest one to a value with a sign: it has the rank of the nearest
magnitude. -/
def IsNearest (number : Binary64) (negative : Bool) (value : ℚ) : Prop :=
  ∃ rank, IsNearestRank rank value ∧ number = ofRank negative rank

/-- The nearest number to a value is a number. -/
theorem IsNearest.ne_nan {number : Binary64} {negative : Bool} {value : ℚ}
    (h : number.IsNearest negative value) : number ≠ .nan := by
  obtain ⟨rank, -, rfl⟩ := h
  unfold ofRank
  split <;> simp

/-- The nearest number has the sign that it is to have. -/
theorem IsNearest.isNegative_eq {number : Binary64} {negative : Bool} {value : ℚ}
    (h : number.IsNearest negative value) : number.isNegative = negative := by
  obtain ⟨rank, -, rfl⟩ := h
  unfold ofRank
  split <;> rfl

/-- There is one nearest number only. -/
theorem IsNearest.unique {number number' : Binary64} {negative : Bool} {value : ℚ}
    (h : number.IsNearest negative value) (h' : number'.IsNearest negative value) :
    number = number' := by
  obtain ⟨rank, hrank, rfl⟩ := h
  obtain ⟨rank', hrank', rfl⟩ := h'
  rw [hrank.unique hrank']

theorem ofUnits_eq (negative : Bool) (num den : Nat) :
    ofUnits negative num den = ofRank negative (nearestRank num den) := rfl

theorem isNearest_ofUnits (negative : Bool) (num : Nat) {den : Nat} (hden : 0 < den) :
    (ofUnits negative num den).IsNearest negative (num / den / unitsOfOne) :=
  ⟨nearestRank num den, isNearestRank_nearestRank num hden, rfl⟩

/-- A natural number with a sign becomes the number nearest to it. -/
theorem isNearest_natural (negative : Bool) (value : Nat) :
    (ofUnits negative (value * unitsOfOne) 1).IsNearest negative value := by
  have hone : (unitsOfOne : ℚ) ≠ 0 := by exact_mod_cast unitsOfOne_pos.ne'
  have hnearest := isNearest_ofUnits negative (value * unitsOfOne) Nat.one_pos
  have hvalue : ((value * unitsOfOne : Nat) / (1 : Nat) / unitsOfOne : ℚ) = value := by
    push_cast
    field_simp
  rwa [hvalue] at hnearest

theorem isNearest_ofNat (value : Nat) : (ofNat value).IsNearest false value :=
  isNearest_natural false value

end Binary64

/-! ## Decimals -/

namespace Decimal

/-- The value of a decimal, without its sign. -/
def magnitude (d : Decimal) : ℚ :=
  d.coefficient * 10 ^ d.exponent

/-- The number nearest to a coefficient with an exponent that is taken as it is. -/
def rounded (negative : Bool) (coefficient : Nat) : Int → Binary64
  | .ofNat e => .ofUnits negative (coefficient * 10 ^ e * unitsOfOne) 1
  | .negSucc e => .ofUnits negative (coefficient * unitsOfOne) (10 ^ (e + 1))

theorem toBinary64_eq (d : Decimal) :
    d.toBinary64 = rounded d.negative d.coefficient d.boundedExponent := by
  unfold toBinary64 rounded
  rfl

theorem isNearest_rounded (negative : Bool) (coefficient : Nat) (exponent : Int) :
    (rounded negative coefficient exponent).IsNearest negative (coefficient * 10 ^ exponent) := by
  have hone : (unitsOfOne : ℚ) ≠ 0 := by exact_mod_cast unitsOfOne_pos.ne'
  cases exponent with
  | ofNat e =>
    have hnearest := Binary64.isNearest_ofUnits negative (coefficient * 10 ^ e * unitsOfOne)
      Nat.one_pos
    have hvalue : ((coefficient * 10 ^ e * unitsOfOne : Nat) / (1 : Nat) / unitsOfOne : ℚ) =
        coefficient * 10 ^ (Int.ofNat e) := by
      push_cast
      field_simp
      simp
    rwa [hvalue] at hnearest
  | negSucc e =>
    have hpower : 0 < 10 ^ (e + 1) := by positivity
    have hnearest := Binary64.isNearest_ofUnits negative (coefficient * unitsOfOne) hpower
    have hvalue : ((coefficient * unitsOfOne : Nat) / (10 ^ (e + 1) : Nat) / unitsOfOne : ℚ) =
        coefficient * 10 ^ (Int.negSucc e) := by
      rw [zpow_negSucc]
      push_cast
      field_simp
    rwa [hvalue] at hnearest

theorem rounded_zero (negative : Bool) (exponent : Int) :
    rounded negative 0 exponent = .ofRank negative 0 := by
  cases exponent with
  | ofNat e =>
    rw [rounded, Nat.zero_mul, Nat.zero_mul, Binary64.ofUnits_eq, nearestRank_eq_zero (by omega)]
  | negSucc e =>
    have hpower : 0 < 10 ^ (e + 1) := Nat.pow_pos (by decide)
    rw [rounded, Nat.zero_mul, Binary64.ofUnits_eq, nearestRank_eq_zero (by omega)]

/-- Every positive coefficient is infinite with an exponent past the upper bound. -/
theorem rounded_of_ge {coefficient : Nat} (hpos : 0 < coefficient) (negative : Bool)
    {exponent : Int} (h : 400 ≤ exponent) :
    rounded negative coefficient exponent = .infinite negative := by
  obtain ⟨e, rfl⟩ := Int.eq_ofNat_of_zero_le (by omega : 0 ≤ exponent)
  obtain ⟨bound, hbound⟩ : ∃ bound, bound = 400 := ⟨_, rfl⟩
  have hlimit : 2 ^ 1024 - 2 ^ 970 ≤ 10 ^ 400 := by decide +kernel
  rw [← hbound] at hlimit
  have hpower : 10 ^ bound ≤ 10 ^ e := Nat.pow_le_pow_right (by decide) (by omega)
  have hlarge : 2 ^ 1024 - 2 ^ 970 ≤ coefficient * 10 ^ e :=
    Nat.le_trans (Nat.le_trans hlimit hpower) (Nat.le_mul_of_pos_left _ hpos)
  rw [← Nat.not_lt, ← nearestRank_lt_rankBound_iff] at hlarge
  exact dif_neg hlarge

/-- Every coefficient is zero with an exponent past the lower bound. -/
theorem rounded_of_le {coefficient : Nat} (negative : Bool) {exponent : Int}
    (h : exponent ≤ -(coefficient.log2 + 400 : Nat)) :
    rounded negative coefficient exponent = .ofRank negative 0 := by
  obtain ⟨e, rfl⟩ := Int.eq_negSucc_of_lt_zero (by omega : exponent < 0)
  obtain ⟨bound, hbound⟩ : ∃ bound, bound = 400 := ⟨_, rfl⟩
  have hlimit : 4 * unitsOfOne ≤ 10 ^ 400 := by decide +kernel
  rw [← hbound] at hlimit
  have hpower : 10 ^ (coefficient.log2 + bound) ≤ 10 ^ (e + 1) :=
    Nat.pow_le_pow_right (by decide) (by omega)
  have hcoefficient : coefficient < 2 * 10 ^ coefficient.log2 := by
    have hlog : coefficient < 2 ^ (coefficient.log2 + 1) := Nat.lt_log2_self
    have hbase : 2 ^ coefficient.log2 ≤ 10 ^ coefficient.log2 :=
      Nat.pow_le_pow_left (by decide) _
    rw [Nat.pow_succ] at hlog
    omega
  have hsmall : 2 * (coefficient * unitsOfOne) < 10 ^ (e + 1) := by
    calc 2 * (coefficient * unitsOfOne)
        = 2 * coefficient * unitsOfOne := (Nat.mul_assoc ..).symm
      _ < 4 * 10 ^ coefficient.log2 * unitsOfOne :=
          Nat.mul_lt_mul_of_pos_right (by omega) unitsOfOne_pos
      _ = 10 ^ coefficient.log2 * (4 * unitsOfOne) := by ring
      _ ≤ 10 ^ coefficient.log2 * 10 ^ bound := Nat.mul_le_mul_left _ hlimit
      _ = 10 ^ (coefficient.log2 + bound) := (Nat.pow_add ..).symm
      _ ≤ 10 ^ (e + 1) := hpower
  rw [rounded, Binary64.ofUnits_eq, nearestRank_eq_zero hsmall]

/-- The bounds on the exponent change no reading. -/
theorem rounded_boundedExponent (d : Decimal) :
    rounded d.negative d.coefficient d.boundedExponent =
      rounded d.negative d.coefficient d.exponent := by
  rcases Nat.eq_zero_or_pos d.coefficient with hzero | hpos
  · rw [hzero, rounded_zero, rounded_zero]
  · rw [boundedExponent]
    by_cases hhigh : 400 ≤ d.exponent
    · rw [rounded_of_ge hpos _ hhigh, rounded_of_ge hpos _ (by omega)]
    · by_cases hlow : d.exponent ≤ -(d.coefficient.log2 + 400 : Nat)
      · rw [rounded_of_le _ hlow, rounded_of_le _ (by omega)]
      · have hwithin : max (-((d.coefficient.log2 + 400 : Nat) : Int)) (min d.exponent 400) =
            d.exponent := by omega
        rw [hwithin]

/-- A decimal is read as the number nearest to it. -/
theorem isNearest_toBinary64 (d : Decimal) : d.toBinary64.IsNearest d.negative d.magnitude := by
  rw [toBinary64_eq, rounded_boundedExponent]
  exact isNearest_rounded d.negative d.coefficient d.exponent

/-! ### The normal form -/

/-- Digits are those that are kept and the zeros behind them. -/
theorem digits_eq_append_zeros (digits : List Char) :
    ∃ count,
      digits = (digits.reverse.dropWhile (· == '0')).reverse ++ List.replicate count '0' := by
  have hzeros : ∀ c ∈ digits.reverse.takeWhile (· == '0'), c = '0' := by
    intro c hc
    simpa using List.all_eq_true.mp List.all_takeWhile c hc
  refine ⟨(digits.reverse.takeWhile (· == '0')).length, ?_⟩
  rw [← List.reverse_inj, List.reverse_append, List.reverse_replicate, List.reverse_reverse,
    ← List.eq_replicate_iff.mpr ⟨rfl, hzeros⟩, List.takeWhile_append_dropWhile]

theorem negative_ofDigits (negative : Bool) (digits : List Char) (exponent : Int) :
    (ofDigits negative digits exponent).negative = negative := by
  unfold ofDigits
  split <;> rfl

/-- The normal form of digits with an exponent has their value. -/
theorem magnitude_ofDigits (negative : Bool) (digits : List Char) (exponent : Int) :
    (ofDigits negative digits exponent).magnitude =
      (Nat.ofDigitChars 10 digits 0 : ℚ) * 10 ^ exponent := by
  obtain ⟨count, hdigits⟩ := digits_eq_append_zeros digits
  have hlength : digits.length = (digits.reverse.dropWhile (· == '0')).length + count := by
    have := congrArg List.length hdigits
    simpa using this
  have hvalue : Nat.ofDigitChars 10 digits 0 =
      10 ^ count * Nat.ofDigitChars 10 (digits.reverse.dropWhile (· == '0')).reverse 0 := by
    conv_lhs => rw [hdigits]
    rw [Nat.ofDigitChars_append, Nat.ofDigitChars_replicate_zero]
  unfold ofDigits
  split
  · next hnone =>
    rw [hvalue, hnone]
    simp [magnitude]
  · have hcount : digits.length - (digits.reverse.dropWhile (· == '0')).length = count := by omega
    rw [hvalue, hcount, magnitude]
    have hten : (10 : ℚ) ≠ 0 := by norm_num
    push_cast
    rw [zpow_add₀ hten, zpow_natCast]
    ring

end Decimal

end Criteria.Number
