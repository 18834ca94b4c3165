import Criteria.Proofs.Nearest
import Criteria.Proofs.NumericTexts
import Criteria.Proofs.Numerals
import Criteria.Proofs.Phrases

/-!
# Integers as numbers

An integer becomes the number nearest to it, and its decimal text is read as the same number, as
there is one nearest number only (`Binary64.ofText_toString`). The place of that number does not
decrease as the integer grows, and up to `2 ^ 53` it is that of the integer itself. So the order of
two integers is never inverted by the order of their numbers, and up to `2 ^ 53` the orders are the
same (`Binary64.compare?_ofInt_of_le`).
-/

namespace Criteria.Number

/-! ## Magnitudes of natural numbers -/

/-- The magnitude in units in whose place the number nearest to a natural number stands. What is too
great for the format stands in the place of an infinity. -/
def heldUnits (n : Nat) : Nat :=
  unitsOfRank (min (nearestRank (n * unitsOfOne) 1) rankBound)

theorem heldUnits_mono : Monotone heldUnits := by
  intro n m h
  have hrank : nearestRank (n * unitsOfOne) 1 ≤ nearestRank (m * unitsOfOne) 1 :=
    nearestRank_mono 1 (Nat.mul_le_mul_right unitsOfOne h)
  exact unitsOfRank_strictMono.monotone (min_le_min_right rankBound hrank)

/-- In steps that are fine enough a number has a place in a block. -/
theorem exists_finer {n : Nat} (hpos : 0 < n) (h : n ≤ 2 ^ 53) :
    ∃ finer ≤ 52, 2 ^ 52 ≤ n * 2 ^ finer ∧ n * 2 ^ finer ≤ 2 ^ 53 := by
  by_cases hend : n = 2 ^ 53
  · exact ⟨0, by omega, by omega, by omega⟩
  · have hleast : 2 ^ n.log2 ≤ n := Nat.log2_self_le (by omega)
    have hnext : n < 2 ^ (n.log2 + 1) := Nat.lt_log2_self
    have hlog : n.log2 < 53 := (Nat.log2_lt (by omega)).mpr (by omega)
    obtain ⟨finer, hfiner⟩ := Nat.exists_eq_add_of_le (Nat.le_of_lt_succ hlog)
    refine ⟨finer, by omega, ?_, ?_⟩
    · rw [hfiner, Nat.pow_add]
      exact Nat.mul_le_mul_right _ hleast
    · have hexponent : 53 = n.log2 + 1 + finer := by omega
      rw [hexponent, Nat.pow_add]
      exact Nat.mul_le_mul_right _ (Nat.le_of_lt hnext)

/-- One is a power of two in units, and can be divided as finely as blocks are. -/
theorem exists_unitsOfOne_eq : ∃ power ≤ 1074, 52 ≤ power ∧ unitsOfOne = 2 ^ power :=
  ⟨1074, by decide, by decide, by decide +kernel⟩

/-- A natural number up to `2 ^ 53` is a magnitude of the format. -/
theorem exists_rank_of_le {n : Nat} (h : n ≤ 2 ^ 53) :
    ∃ rank ≤ rankBound, unitsOfRank rank = n * unitsOfOne := by
  rcases Nat.eq_zero_or_pos n with rfl | hpos
  · exact ⟨0, Nat.zero_le _, by rw [unitsOfRank_zero, Nat.zero_mul]⟩
  · obtain ⟨finer, hfiner, hlow, hhigh⟩ := exists_finer hpos h
    obtain ⟨power, hmost, hleast, hone⟩ := exists_unitsOfOne_eq
    refine ⟨(power - finer) * 2 ^ 52 + n * 2 ^ finer, ?_, ?_⟩
    · show (power - finer) * 2 ^ 52 + n * 2 ^ finer ≤ 2047 * 2 ^ 52
      omega
    · have hpower : finer + (power - finer) = power := by omega
      rw [unitsOfRank_shift (.inr hlow) hhigh, Nat.mul_assoc, ← Nat.pow_add, hpower, hone]

/-- Up to `2 ^ 53` natural numbers are held as they are. -/
theorem heldUnits_of_le {n : Nat} (h : n ≤ 2 ^ 53) : heldUnits n = n * unitsOfOne := by
  obtain ⟨rank, hrank, hunits⟩ := exists_rank_of_le h
  rw [heldUnits, ← hunits, nearestRank_unitsOfRank, Nat.min_eq_left hrank]

namespace Binary64

/-! ## Places of integers -/

/-- The place of the number nearest to an integer. -/
def heldPlace (v : Int) : Int :=
  signed (v < 0) (heldUnits v.natAbs)

theorem heldPlace_of_nonneg {v : Int} (h : 0 ≤ v) : heldPlace v = heldUnits v.natAbs := by
  rw [heldPlace, signed, if_neg (by simpa using h)]

theorem heldPlace_of_neg {v : Int} (h : v < 0) : heldPlace v = -heldUnits v.natAbs := by
  rw [heldPlace, signed, if_pos (by simpa using h)]

/-- A greater integer has no lesser place. -/
theorem heldPlace_mono {v w : Int} (h : v ≤ w) : heldPlace v ≤ heldPlace w := by
  by_cases hv : v < 0
  · by_cases hw : w < 0
    · have hunits : heldUnits w.natAbs ≤ heldUnits v.natAbs := heldUnits_mono (by omega)
      rw [heldPlace_of_neg hv, heldPlace_of_neg hw]
      omega
    · rw [heldPlace_of_neg hv, heldPlace_of_nonneg (by omega)]
      omega
  · have hunits : heldUnits v.natAbs ≤ heldUnits w.natAbs := heldUnits_mono (by omega)
    rw [heldPlace_of_nonneg (by omega), heldPlace_of_nonneg (by omega)]
    omega

theorem heldPlace_of_le {v : Int} (h : v.natAbs ≤ 2 ^ 53) : heldPlace v = v * unitsOfOne := by
  by_cases hv : v < 0
  · rw [heldPlace_of_neg hv, heldUnits_of_le h, Nat.cast_mul, ← Int.neg_mul]
    congr 1
    omega
  · rw [heldPlace_of_nonneg (by omega), heldUnits_of_le h, Nat.cast_mul]
    congr 1
    omega

theorem place?_ofInt (v : Int) : (ofInt v).place? = some (heldPlace v) := by
  rw [ofInt, ofUnits_eq, ofRank, heldPlace, heldUnits]
  split
  · next hrank => rw [Nat.min_eq_left (Nat.le_of_lt hrank), place?]
  · next hrank => rw [Nat.min_eq_right (Nat.le_of_not_lt hrank), place?]

/-- Integers are compared as numbers by their places. -/
theorem compare?_ofInt (v w : Int) :
    (ofInt v).compare? (ofInt w) = some (compare (heldPlace v) (heldPlace w)) := by
  rw [compare?, place?_ofInt, place?_ofInt]

theorem ofNat_eq_ofInt (n : Nat) : ofNat n = ofInt n := by
  rw [ofNat, ofInt, Int.natAbs_natCast]
  congr 1

/-! ## Order -/

/-- The order of two integers as numbers is their own, unless different integers become the same
number. -/
theorem compare?_ofInt_cases (v w : Int) :
    (ofInt v).compare? (ofInt w) = some (compare v w) ∨
      (ofInt v).compare? (ofInt w) = some .eq := by
  rw [compare?_ofInt]
  rcases lt_trichotomy v w with hlt | rfl | hgt
  · rw [compare_lt_iff_lt.mpr hlt]
    rcases lt_or_eq_of_le (heldPlace_mono hlt.le) with hplace | hplace
    · exact .inl (congrArg some (compare_lt_iff_lt.mpr hplace))
    · exact .inr (congrArg some (compare_eq_iff_eq.mpr hplace))
  · exact .inr (congrArg some (compare_eq_iff_eq.mpr rfl))
  · rw [compare_gt_iff_gt.mpr hgt]
    rcases lt_or_eq_of_le (heldPlace_mono hgt.le) with hplace | hplace
    · exact .inl (congrArg some (compare_gt_iff_gt.mpr hplace))
    · exact .inr (congrArg some (compare_eq_iff_eq.mpr hplace.symm))

/-- Up to `2 ^ 53` integers are in the same order as their numbers. -/
theorem compare?_ofInt_of_le {v w : Int} (hv : v.natAbs ≤ 2 ^ 53) (hw : w.natAbs ≤ 2 ^ 53) :
    (ofInt v).compare? (ofInt w) = some (compare v w) := by
  have hone : (0 : Int) < unitsOfOne := by exact_mod_cast unitsOfOne_pos
  rw [compare?_ofInt, heldPlace_of_le hv, heldPlace_of_le hw]
  rcases lt_trichotomy v w with hlt | rfl | hgt
  · rw [compare_lt_iff_lt.mpr hlt, compare_lt_iff_lt.mpr (Int.mul_lt_mul_of_pos_right hlt hone)]
  · rw [compare_eq_iff_eq.mpr rfl, compare_eq_iff_eq.mpr rfl]
  · rw [compare_gt_iff_gt.mpr hgt, compare_gt_iff_gt.mpr (Int.mul_lt_mul_of_pos_right hgt hone)]

/-! ## Texts of integers -/

theorem isNearest_ofInt (v : Int) : (ofInt v).IsNearest (v < 0) v.natAbs :=
  isNearest_natural (v < 0) v.natAbs

/-- Decimals have no blanks. -/
theorem isDecimal_of_isBlank {c : Char} (h : Text.isBlank c = true) :
    WrittenDecimal.isDecimal c = false := by
  have hmarks : ['+', '-', '.', 'e', 'E'].all (fun d => !Text.isBlank d) = true := by
    decide +kernel
  have hother : ∀ d ∈ ['+', '-', '.', 'e', 'E'], c ≠ d := by
    intro d hd
    exact Text.ne_of_class h (by simpa using List.all_eq_true.mp hmarks d hd)
  simp only [List.forall_mem_cons] at hother
  simp [WrittenDecimal.isDecimal, isSign, isDigit_of_isBlank h, hother]

/-- A decimal is read as the number nearest to its value. -/
theorem isNearest_ofText_source {d : WrittenDecimal} (h : d.WellFormed) :
    (ofText (String.ofList d.source)).IsNearest d.sign.isNegative d.value := by
  have hd : (Written.decimal d).WellFormed := h
  obtain ⟨number, hnumber, hmeans⟩ := exists_numberOfStripped_source hd
  have hread : numberOfStripped d.source = some number := hnumber
  have hblank : ∀ c ∈ d.source, Text.isBlank c = false := fun c hc =>
    Text.not_of_disjoint isDecimal_of_isBlank (WrittenDecimal.all_isDecimal_source h c hc)
  rw [ofText, String.toList_ofList, Text.strip_eq_self hblank, hread]
  exact hmeans

/-- Digits behind a sign are read as the number nearest to their value. -/
theorem isNearest_ofText_digits (sign : Sign) {digits : List Char} (hne : digits ≠ [])
    (hdigits : ∀ c ∈ digits, c.isDigit = true) :
    (ofText (String.ofList (sign.source ++ digits))).IsNearest sign.isNegative
      (natOfDigits digits) := by
  let d : WrittenDecimal := ⟨sign, digits, none, none⟩
  have hd : d.WellFormed := by
    refine ⟨?_, ?_, ?_⟩
    · simpa [d, WrittenDecimal.digits] using hne
    · simpa [d, WrittenDecimal.digits] using hdigits
    · simp [d]
  have hsource : d.source = sign.source ++ digits := by
    simp [d, WrittenDecimal.source, WrittenDecimal.fractionSource, WrittenDecimal.exponentSource]
  have hvalue : d.value = natOfDigits digits := by
    simp [d, WrittenDecimal.value, WrittenDecimal.digits, WrittenDecimal.exponentValue]
  have hnearest := isNearest_ofText_source hd
  rwa [hsource, hvalue] at hnearest

/-- Digits are read as the number that they stand for in a rule. -/
theorem ofText_digits {digits : List Char} (hne : digits ≠ [])
    (hdigits : ∀ c ∈ digits, c.isDigit = true) :
    ofText (String.ofList digits) = ofNat (natOfDigits digits) :=
  (isNearest_ofText_digits .none hne hdigits).unique (isNearest_ofNat _)

/-- The decimal text of an integer is read as the number that the integer becomes. -/
theorem ofText_toString (v : Int) : ofText (toString v) = ofInt v := by
  have hread : ∀ (sign : Sign) (n : Nat),
      (ofText (String.ofList (sign.source ++ Nat.toDigits 10 n))).IsNearest sign.isNegative n := by
    intro sign n
    have hnearest := isNearest_ofText_digits sign Nat.toDigits_ne_nil (all_isDigit_toDigits n)
    rwa [natOfDigits, Nat.ofDigitChars_ten_toDigits] at hnearest
  cases v with
  | ofNat n => exact (hread .none n).unique (isNearest_ofInt (.ofNat n))
  | negSucc n =>
    have htext : toString (Int.negSucc n) =
        String.ofList (Sign.minus.source ++ Nat.toDigits 10 (n + 1)) := by
      show "-" ++ String.ofList (Nat.toDigits 10 (n + 1)) = _
      rw [String.ofList_append]
      rfl
    have hnearest : (ofInt (.negSucc n)).IsNearest Sign.minus.isNegative ((n + 1 : Nat) : ℚ) := by
      have h := isNearest_ofInt (.negSucc n)
      rwa [decide_eq_true (Int.negSucc_lt_zero n)] at h
    rw [htext]
    exact (hread .minus (n + 1)).unique hnearest

end Binary64

end Criteria.Number
