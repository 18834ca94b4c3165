import Criteria.Json.Numeral
import Criteria.Json.Printer
import Criteria.Proofs.Runs

/-!
# Numbers in JSON texts are read back

A numeral is found at the start of every text that it is written at the start of, unless the text
goes on with a digit, a point or the mark of an exponent (`Numeral.span?_source_append`). The text
of a finite number is a numeral with a point or an exponent, so it is read as a number and never as
an integer. Which number it is, is for the arithmetic of the reader to say (`Numeral.real`).
-/

namespace Criteria

open Text (Stops stops_cons spanDigits_append)

/-! ## The parts of a numeral -/

namespace Json.Numeral

/-- The digits before the point are a zero by itself, or do not start with one. -/
def IsWhole (digits : List Char) : Prop :=
  digits = ['0'] ∨ ∃ first rest, digits = first :: rest ∧ first ≠ '0'

/-- The digits behind the point, with the point if there are any. -/
def fractionText : List Char → List Char
  | [] => []
  | digit :: digits => '.' :: digit :: digits

/-- The exponent with its mark, if there is one. -/
def exponentText : Option Int → List Char
  | none => []
  | some e => Number.Decimal.exponentText e

/-- A character with which a numeral may start. -/
def starts (c : Char) : Bool :=
  c == '-' || c.isDigit

/-- A character with which a numeral may go on. -/
def continues (c : Char) : Bool :=
  c.isDigit || c == '.' || c == 'e' || c == 'E'

theorem stops_isDigit {rest : List Char} (h : Stops continues rest) : Stops Char.isDigit rest := by
  intro c hc
  have hcontinues := h c hc
  simp only [continues, Bool.or_eq_false_iff] at hcontinues
  exact hcontinues.1.1.1

theorem stops_point {rest : List Char} (h : Stops continues rest) : Stops (· == '.') rest := by
  intro c hc
  have hcontinues := h c hc
  simp only [continues, Bool.or_eq_false_iff] at hcontinues
  exact hcontinues.1.1.2

end Json.Numeral

/-! ## Digits -/

namespace Number

theorem all_isDigit_toDigits (n : Nat) : ∀ c ∈ Nat.toDigits 10 n, c.isDigit = true := by
  intro c hc
  exact Nat.isDigit_of_mem_toDigits (by decide) (by decide) hc

/-- The digits of a positive number do not start with a zero. -/
theorem toDigits_eq_cons {n : Nat} (h : 0 < n) :
    ∃ first rest, Nat.toDigits 10 n = first :: rest ∧ first ≠ '0' := by
  induction n using Nat.strongRecOn with
  | ind n ih =>
    rw [Nat.toDigits_eq_if (by decide)]
    split
    · next hsmall =>
      have hfirst : ∀ m < 10, 0 < m → Nat.digitChar m ≠ '0' := by decide
      exact ⟨_, [], rfl, hfirst n hsmall h⟩
    · next hlarge =>
      -- the first digit is that of a tenth of the number
      obtain ⟨first, rest, hdigits, hfirst⟩ := ih (n / 10) (by omega) (by omega)
      exact ⟨first, rest ++ [Nat.digitChar (n % 10)], by rw [hdigits]; rfl, hfirst⟩

theorem all_isDigit_zeros (count : Nat) : ∀ c ∈ zeros count, c.isDigit = true := by
  intro c hc
  rw [List.eq_of_mem_replicate hc]
  rfl

/-! ## Decimals in normal form -/

/-- Zero is written with exponent 0. -/
def Decimal.IsNormal (d : Decimal) : Prop :=
  d.coefficient = 0 → d.exponent = 0

/-- Digits that end with one that is not zero make a positive number. -/
theorem ofDigitChars_append_pos {last : Char} (hdigit : last.isDigit = true) (hlast : last ≠ '0')
    (digits : List Char) : 0 < Nat.ofDigitChars 10 (digits ++ [last]) 0 := by
  have hvalue : '0'.toNat < last.toNat := by
    have hge : 48 ≤ last.toNat := by
      simp only [Char.isDigit, Bool.and_eq_true, decide_eq_true_eq, ge_iff_le,
        UInt32.le_iff_toNat_le] at hdigit
      exact hdigit.1
    have hne : last.toNat ≠ '0'.toNat := fun heq => hlast (Char.toNat_inj.mp heq)
    have hzero : '0'.toNat = 48 := rfl
    omega
  rw [Nat.ofDigitChars_append, Nat.ofDigitChars_cons, Nat.ofDigitChars_nil]
  omega

theorem Decimal.isNormal_ofDigits (negative : Bool) {digits : List Char}
    (hdigits : ∀ c ∈ digits, c.isDigit = true) (exponent : Int) :
    (ofDigits negative digits exponent).IsNormal := by
  intro hzero
  unfold ofDigits at hzero ⊢
  split at hzero
  · rfl
  · next kept hkept =>
    -- a digit is kept, and the last digit that is kept is not zero
    exfalso
    cases hcons : digits.reverse.dropWhile (· == '0') with
    | nil => exact hkept hcons
    | cons last before =>
      rw [hcons, List.reverse_cons] at hzero
      have hmem : last ∈ digits := by
        have hsuffix := List.dropWhile_sublist (l := digits.reverse) (· == '0')
        rw [hcons] at hsuffix
        exact List.mem_reverse.mp (hsuffix.subset List.mem_cons_self)
      have hlast : last ≠ '0' := by
        have hne : digits.reverse.dropWhile (· == '0') ≠ [] := by simp [hcons]
        have hhead := List.head_dropWhile_not (· == '0') hne
        simpa [hcons] using hhead
      have hpos := ofDigitChars_append_pos (hdigits last hmem) hlast before.reverse
      exact absurd hzero (Nat.ne_of_gt hpos)

theorem isNormal_shortestDecimal (tie : Tie) (negative : Bool) (rank : Fin rankBound) :
    (shortestDecimal tie negative rank).IsNormal := by
  unfold shortestDecimal
  simp only
  split
  · next decimal hfound =>
    obtain ⟨size, -, hdropping⟩ := List.exists_of_findSome?_eq_some hfound
    have hmem := List.mem_of_find?_eq_some hdropping
    obtain ⟨coefficient, -, rfl⟩ := List.mem_map.mp hmem
    exact Decimal.isNormal_ofDigits negative (all_isDigit_toDigits coefficient) _
  · exact Decimal.isNormal_ofDigits negative (all_isDigit_toDigits _) _

/-- The digits of a decimal in their places: before the point there is a zero by itself, or digits
that do not start with one. -/
theorem positional_digits {d : Decimal} (h : d.IsNormal) :
    Json.Numeral.IsWhole (positional d.digits d.exponent).1 := by
  rcases Nat.eq_zero_or_pos d.coefficient with hzero | hpos
  · rw [h hzero, Decimal.digits, hzero]
    exact .inl rfl
  · obtain ⟨first, rest, hdigits, hfirst⟩ := toDigits_eq_cons hpos
    rw [Decimal.digits, hdigits]
    cases d.exponent with
    | ofNat e => exact .inr ⟨first, rest ++ zeros e, rfl, hfirst⟩
    | negSucc e =>
      rw [positional]
      split
      · next hplaces =>
        have htake : 0 < (first :: rest).length - (e + 1) := by omega
        obtain ⟨count, hcount⟩ := Nat.exists_eq_succ_of_ne_zero (Nat.ne_of_gt htake)
        rw [hcount]
        exact .inr ⟨first, rest.take count, rfl, hfirst⟩
      · exact .inl rfl

theorem all_isDigit_positional {digits : List Char} (hdigits : ∀ c ∈ digits, c.isDigit = true)
    (exponent : Int) :
    (∀ c ∈ (positional digits exponent).1, c.isDigit = true) ∧
      ∀ c ∈ (positional digits exponent).2, c.isDigit = true := by
  cases exponent with
  | ofNat e =>
    refine ⟨?_, by simp [positional]⟩
    intro c hc
    rcases List.mem_append.mp hc with hdigit | hzero
    · exact hdigits c hdigit
    · exact all_isDigit_zeros e c hzero
  | negSucc e =>
    rw [positional]
    split
    · exact ⟨fun c hc => hdigits c (List.mem_of_mem_take hc),
        fun c hc => hdigits c (List.mem_of_mem_drop hc)⟩
    · refine ⟨by simp, ?_⟩
      intro c hc
      rcases List.mem_append.mp hc with hzero | hdigit
      · exact all_isDigit_zeros _ c hzero
      · exact hdigits c hdigit

end Number

/-! ## Numerals as they are written -/

namespace Json.Numeral

open Number

/-- The text of a numeral, with a sign in its exponent. -/
def source (n : Numeral) : List Char :=
  sign n.negative ++ (n.whole ++ (fractionText n.fraction ++ exponentText n.exponent))

/-- A numeral is made as it should be. -/
structure WellFormed (n : Numeral) : Prop where
  isWhole : IsWhole n.whole
  whole : ∀ c ∈ n.whole, c.isDigit = true
  fraction : ∀ c ∈ n.fraction, c.isDigit = true

theorem spanWhole?_append {whole rest : List Char} (hwhole : IsWhole whole)
    (hdigits : ∀ c ∈ whole, c.isDigit = true) (hrest : Stops Char.isDigit rest) :
    spanWhole? (whole ++ rest) = some (whole, rest) := by
  rcases hwhole with rfl | ⟨first, others, rfl, hfirst⟩
  · rfl
  · have hspan := spanDigits_append hdigits hrest
    rw [List.cons_append] at hspan ⊢
    rw [spanWhole?, hspan]
    intro rest' heq
    exact hfirst (List.cons.inj heq).1

theorem spanFraction?_append {fraction rest : List Char}
    (hdigits : ∀ c ∈ fraction, c.isDigit = true) (hrest : Stops Char.isDigit rest)
    (hpoint : Stops (· == '.') rest) :
    spanFraction? (fractionText fraction ++ rest) = some (fraction, rest) := by
  cases fraction with
  | nil =>
    cases rest with
    | nil => rfl
    | cons c rest =>
      have hc : c ≠ '.' := by simpa using hpoint c rfl
      rw [fractionText, List.nil_append, spanFraction?]
      intro rest' heq
      exact hc (List.cons.inj heq).1
  | cons digit digits =>
    have hspan := spanDigits_append hdigits hrest
    rw [List.cons_append] at hspan
    rw [fractionText, List.cons_append, List.cons_append, spanFraction?, hspan]

/-- An exponent is read as it was: its digits are those of its magnitude. -/
theorem signed_natAbs (e : Int) : Binary64.signed (decide (e < 0)) e.natAbs = e := by
  rw [Binary64.signed]
  split
  · next hneg =>
    have := of_decide_eq_true hneg
    omega
  · next hnonneg =>
    have : ¬ e < 0 := by simpa using hnonneg
    omega

theorem spanSign_exponentText (e : Int) (rest : List Char) :
    spanSign ((if e < 0 then '-' else '+') :: rest) = (decide (e < 0), rest) := by
  split
  · next hneg => simp [spanSign, hneg]
  · next hnonneg => simp [spanSign, hnonneg]

theorem spanExponent?_append (exponent : Option Int) {rest : List Char}
    (hrest : Stops continues rest) :
    spanExponent? (exponentText exponent ++ rest) = some (exponent, rest) := by
  cases exponent with
  | none =>
    cases rest with
    | nil => rfl
    | cons c rest =>
      have hc : continues c = false := hrest c rfl
      have hmark : ¬ (c = 'e' ∨ c = 'E') := by
        rintro (rfl | rfl)
        · exact absurd hc (by decide)
        · exact absurd hc (by decide)
      rw [exponentText, List.nil_append, spanExponent?, if_neg hmark]
  | some e =>
    have hdigits := all_isDigit_toDigits e.natAbs
    have hspan := spanDigits_append hdigits (stops_isDigit hrest)
    rw [exponentText, Decimal.exponentText, List.cons_append, spanExponent?, if_pos (.inl rfl),
      List.cons_append, spanSign_exponentText, hspan]
    cases hcons : Nat.toDigits 10 e.natAbs with
    | nil => exact absurd hcons Nat.toDigits_ne_nil
    | cons digit digits =>
      simp only
      rw [← hcons, natOfDigits, Nat.ofDigitChars_ten_toDigits, signed_natAbs]

theorem stops_exponentText {p : Char → Bool} (hmark : p 'e' = false) (exponent : Option Int)
    {rest : List Char} (hrest : Stops p rest) : Stops p (exponentText exponent ++ rest) := by
  cases exponent with
  | none => exact hrest
  | some e => exact stops_cons hmark

theorem stops_fractionText {p : Char → Bool} (hpoint : p '.' = false) (fraction : List Char)
    {rest : List Char} (hrest : Stops p rest) : Stops p (fractionText fraction ++ rest) := by
  cases fraction with
  | nil => exact hrest
  | cons digit digits => exact stops_cons hpoint

theorem source_eq_cons {n : Numeral} (h : n.WellFormed) :
    ∃ c cs, n.source = c :: cs ∧ starts c = true := by
  obtain ⟨negative, whole, fraction, exponent⟩ := n
  have hwhole : whole ≠ [] := by
    rintro rfl
    exact h.isWhole.elim (by simp) (by simp)
  cases negative with
  | true => exact ⟨'-', _, rfl, rfl⟩
  | false =>
    cases whole with
    | nil => exact absurd rfl hwhole
    | cons digit digits =>
      have hdigit : digit.isDigit = true := h.whole digit List.mem_cons_self
      exact ⟨digit, _, rfl, by simp [starts, hdigit]⟩

/-- A numeral is found where it is written, unless the text goes on with it. -/
theorem span?_source_append {n : Numeral} (h : n.WellFormed) {rest : List Char}
    (hrest : Stops continues rest) : span? (n.source ++ rest) = some (n, rest) := by
  obtain ⟨negative, whole, fraction, exponent⟩ := n
  let afterFraction := exponentText exponent ++ rest
  let afterWhole := fractionText fraction ++ afterFraction
  have hexponent : spanExponent? afterFraction = some (exponent, rest) :=
    spanExponent?_append exponent hrest
  have hfraction : spanFraction? afterWhole = some (fraction, afterFraction) :=
    spanFraction?_append h.fraction (stops_exponentText rfl exponent (stops_isDigit hrest))
      (stops_exponentText rfl exponent (stops_point hrest))
  have hwhole : spanWhole? (whole ++ afterWhole) = some (whole, afterWhole) :=
    spanWhole?_append h.isWhole h.whole
      (stops_fractionText rfl fraction (stops_exponentText rfl exponent (stops_isDigit hrest)))
  have hsource : source ⟨negative, whole, fraction, exponent⟩ ++ rest =
      sign negative ++ (whole ++ afterWhole) := by
    simp [source, afterWhole, afterFraction]
  rw [hsource]
  cases negative with
  | true =>
    show span? ('-' :: (whole ++ afterWhole)) = _
    rw [span?]
    simp only [Option.bind_eq_bind, hwhole, hfraction, hexponent, Option.bind_some]
  | false =>
    show span? (whole ++ afterWhole) = _
    rw [span?]
    · simp only [Option.bind_eq_bind, hwhole, hfraction, hexponent, Option.bind_some]
    · -- without a sign the first character is a digit
      intro rest' heq
      cases whole with
      | nil => exact h.isWhole.elim (by simp) (by simp)
      | cons digit digits =>
        have hdigit : digit.isDigit = true := h.whole digit List.mem_cons_self
        rw [(List.cons.inj heq).1] at hdigit
        exact absurd hdigit (by decide)

/-! ## The numerals of numbers -/

/-- The numeral that the text of an integer is. -/
def ofInt (value : Int) : Numeral :=
  ⟨value < 0, Nat.toDigits 10 value.natAbs, [], none⟩

/-- The numeral that the text of a decimal is. -/
def ofDecimal (d : Decimal) : Numeral :=
  if d.coefficient = 0 ∨ -5 ≤ d.leadingExponent ∧ d.leadingExponent < 16 then
    match positional d.digits d.exponent with
    | (whole, []) => ⟨d.negative, whole, ['0'], none⟩
    | (whole, fraction) => ⟨d.negative, whole, fraction, none⟩
  else
    ⟨d.negative, d.digits.take 1, d.digits.drop 1, some d.leadingExponent⟩

theorem source_ofInt (value : Int) : (ofInt value).source = integerText value := by
  simp [ofInt, source, integerText, fractionText, exponentText]

theorem isWhole_toDigits (n : Nat) : IsWhole (Nat.toDigits 10 n) := by
  rcases Nat.eq_zero_or_pos n with rfl | hpos
  · exact .inl rfl
  · exact .inr (toDigits_eq_cons hpos)

theorem wellFormed_ofInt (value : Int) : (ofInt value).WellFormed where
  isWhole := isWhole_toDigits _
  whole := all_isDigit_toDigits _
  fraction := List.forall_mem_nil _

theorem source_ofDecimal (d : Decimal) : (ofDecimal d).source = d.toScientific := by
  unfold ofDecimal Decimal.toScientific
  by_cases hplain : d.coefficient = 0 ∨ -5 ≤ d.leadingExponent ∧ d.leadingExponent < 16
  · rw [if_pos hplain, if_pos hplain]
    obtain ⟨whole, fraction⟩ := positional d.digits d.exponent
    cases fraction with
    | nil => simp [source, fractionText, exponentText]
    | cons digit digits => simp [source, fractionText, exponentText]
  · rw [if_neg hplain, if_neg hplain]
    cases hdigits : d.digits with
    | nil => exact absurd hdigits Nat.toDigits_ne_nil
    | cons first rest =>
      cases rest with
      | nil => simp [source, fractionText, exponentText]
      | cons second rest => simp [source, fractionText, exponentText]

theorem wellFormed_ofDecimal {d : Decimal} (h : d.IsNormal) : (ofDecimal d).WellFormed := by
  have hdigits : ∀ c ∈ d.digits, c.isDigit = true := all_isDigit_toDigits _
  unfold ofDecimal
  by_cases hplain : d.coefficient = 0 ∨ -5 ≤ d.leadingExponent ∧ d.leadingExponent < 16
  · rw [if_pos hplain]
    have hwhole := positional_digits h
    have hpositional := all_isDigit_positional hdigits d.exponent
    generalize positional d.digits d.exponent = places at hwhole hpositional ⊢
    obtain ⟨whole, fraction⟩ := places
    cases fraction with
    | nil => exact ⟨hwhole, hpositional.1, by simp⟩
    | cons digit digits => exact ⟨hwhole, hpositional.1, hpositional.2⟩
  · rw [if_neg hplain]
    have hpos : 0 < d.coefficient := Nat.pos_of_ne_zero fun hzero => hplain (.inl hzero)
    obtain ⟨first, rest, hcons, hfirst⟩ := toDigits_eq_cons hpos
    have htake : d.digits.take 1 = [first] := by
      rw [Decimal.digits, hcons]
      rfl
    exact ⟨.inr ⟨first, [], htake, hfirst⟩, fun c hc => hdigits c (List.mem_of_mem_take hc),
      fun c hc => hdigits c (List.mem_of_mem_drop hc)⟩

/-- The text of an integer that a 64-bit word holds is read as this integer. -/
theorem toJson_ofInt {value : Int} (hmin : -(Nat.pow 2 63 : Int) ≤ value)
    (hmax : value < (Nat.pow 2 64 : Int)) : (ofInt value).toJson = .integer value := by
  have hsigned : Binary64.signed (ofInt value).negative (natOfDigits (ofInt value).whole) = value := by
    rw [ofInt, natOfDigits, Nat.ofDigitChars_ten_toDigits]
    exact signed_natAbs value
  have hinteger : (ofInt value).integer? = some value := by
    unfold integer?
    simp only [hsigned]
    refine if_pos ⟨rfl, rfl, ?_, hmin, hmax⟩
    rintro ⟨hnegative, hzero⟩
    simp [ofInt, hzero] at hnegative
  rw [toJson, hinteger]

/-- The text of a decimal has a point or an exponent, so it is not read as an integer. -/
theorem toJson_ofDecimal (d : Decimal) : (ofDecimal d).toJson = .real (ofDecimal d).real := by
  have hinteger : (ofDecimal d).integer? = none := by
    have hmark : ¬ ((ofDecimal d).fraction = [] ∧ (ofDecimal d).exponent = none) := by
      unfold ofDecimal
      by_cases hplain : d.coefficient = 0 ∨ -5 ≤ d.leadingExponent ∧ d.leadingExponent < 16
      · rw [if_pos hplain]
        obtain ⟨whole, fraction⟩ := positional d.digits d.exponent
        cases fraction <;> simp
      · rw [if_neg hplain]
        simp
    rw [integer?]
    exact if_neg fun h => hmark ⟨h.1, h.2.1⟩
  rw [toJson, hinteger]

end Json.Numeral

end Criteria
