import Criteria.Proofs.Nearest
import Criteria.Proofs.Runs

/-!
# Decimals as they are written

How a decimal may be written is said here without reading: a sign, digits, a point with digits
behind it, and an exponent, of which the digits alone may not be missing. What is written so is
read as a decimal (`WrittenDecimal.ofText?_source`), nothing else is
(`WrittenDecimal.exists_of_ofText?`), and the number that it becomes is the nearest one to the value
that is written.
-/

namespace Criteria.Number

open Text (Stops stops_nil stops_cons)

/-! ## What is written -/

/-- What stands before a number or an exponent. -/
inductive Sign where
  | none
  | plus
  | minus

namespace Sign

def source : Sign → List Char
  | none => []
  | plus => ['+']
  | minus => ['-']

def isNegative : Sign → Bool
  | minus => true
  | none | plus => false

end Sign

/-- The exponent of a decimal, with the mark before it. -/
structure WrittenExponent where
  mark : Char
  sign : Sign
  digits : List Char

namespace WrittenExponent

def source (exponent : WrittenExponent) : List Char :=
  exponent.mark :: (exponent.sign.source ++ exponent.digits)

structure WellFormed (exponent : WrittenExponent) : Prop where
  mark : exponent.mark = 'e' ∨ exponent.mark = 'E'
  digits_ne : exponent.digits ≠ []
  digits : ∀ c ∈ exponent.digits, c.isDigit = true

def value (exponent : WrittenExponent) : Int :=
  Binary64.signed exponent.sign.isNegative (natOfDigits exponent.digits)

end WrittenExponent

/-- A decimal: a sign, digits, a point with digits behind it, and an exponent. Point and exponent
may be missing. -/
structure WrittenDecimal where
  sign : Sign
  whole : List Char
  fraction : Option (List Char)
  exponent : Option WrittenExponent

namespace WrittenDecimal

/-- The point and the digits behind it. -/
def fractionSource : Option (List Char) → List Char
  | some digits => '.' :: digits
  | none => []

def exponentSource : Option WrittenExponent → List Char
  | some exponent => exponent.source
  | none => []

def source (d : WrittenDecimal) : List Char :=
  d.sign.source ++ (d.whole ++ (fractionSource d.fraction ++ exponentSource d.exponent))

/-- The digits before and behind the point. -/
def digits (d : WrittenDecimal) : List Char :=
  d.whole ++ d.fraction.getD []

structure WellFormed (d : WrittenDecimal) : Prop where
  digits_ne : d.digits ≠ []
  digits : ∀ c ∈ d.digits, c.isDigit = true
  exponent : ∀ exponent ∈ d.exponent, exponent.WellFormed

def exponentValue : Option WrittenExponent → Int
  | some exponent => exponent.value
  | none => 0

/-- The value of a decimal, without its sign. -/
def value (d : WrittenDecimal) : ℚ :=
  natOfDigits d.digits * 10 ^ (exponentValue d.exponent - (d.fraction.getD []).length)

end WrittenDecimal

/-! ## Signs -/

/-- The character is one with which a sign is written. -/
def isSign (c : Char) : Bool :=
  c == '+' || c == '-'

theorem isSign_of_isDigit {c : Char} (h : c.isDigit = true) : isSign c = false := by
  have hplus : c ≠ '+' := Text.ne_of_class h (by decide)
  have hminus : c ≠ '-' := Text.ne_of_class h (by decide)
  simp [isSign, hplus, hminus]

theorem Sign.spanSign_source_append (sign : Sign) {rest : List Char} (h : Stops isSign rest) :
    spanSign (sign.source ++ rest) = (sign.isNegative, rest) := by
  cases sign with
  | plus => rfl
  | minus => rfl
  | none =>
    cases rest with
    | nil => rfl
    | cons c rest =>
      have hc : isSign c = false := h c rfl
      simp only [isSign, Bool.or_eq_false_iff, beq_eq_false_iff_ne] at hc
      show spanSign (c :: rest) = _
      unfold spanSign
      split
      · next heq => exact absurd (List.cons.inj heq).1 hc.1
      · next heq => exact absurd (List.cons.inj heq).1 hc.2
      · rfl

/-- What is taken for the sign of a text is written before the rest of it. -/
theorem exists_sign (cs : List Char) :
    ∃ sign : Sign, cs = sign.source ++ (spanSign cs).2 ∧ (spanSign cs).1 = sign.isNegative := by
  unfold spanSign
  split
  · exact ⟨.plus, rfl, rfl⟩
  · exact ⟨.minus, rfl, rfl⟩
  · exact ⟨.none, rfl, rfl⟩

/-! ## Exponents -/

theorem all_isDigit_spanDigits (cs : List Char) : ∀ c ∈ (spanDigits cs).1, c.isDigit = true :=
  List.all_eq_true.mp List.all_takeWhile

theorem append_spanDigits (cs : List Char) : (spanDigits cs).1 ++ (spanDigits cs).2 = cs :=
  List.takeWhile_append_dropWhile

/-- Digits stop before a sign, unless there are none. -/
theorem stops_isSign_of_digits {digits rest : List Char}
    (hdigits : ∀ c ∈ digits, c.isDigit = true) (hrest : digits = [] → Stops isSign rest) :
    Stops isSign (digits ++ rest) := by
  cases digits with
  | nil => exact hrest rfl
  | cons c digits => exact stops_cons (isSign_of_isDigit (hdigits c List.mem_cons_self))

theorem exponent?_source {exponent : WrittenExponent} (h : exponent.WellFormed) :
    exponent? exponent.source = some exponent.value := by
  obtain ⟨mark, sign, digits⟩ := exponent
  have hsign : spanSign (sign.source ++ digits) = (sign.isNegative, digits) := by
    have hstops : Stops isSign (digits ++ []) := stops_isSign_of_digits h.digits fun _ => stops_nil
    rw [List.append_nil] at hstops
    exact sign.spanSign_source_append hstops
  have hspan : spanDigits digits = (digits, []) := by
    have happend := Text.spanDigits_append h.digits stops_nil
    rwa [List.append_nil] at happend
  rw [WrittenExponent.source, exponent?, if_pos h.mark, hsign, hspan]
  cases hcons : digits with
  | nil => exact absurd hcons h.digits_ne
  | cons c cs => rfl

/-- What is read as an exponent is one as it is written, or nothing. -/
theorem exists_of_exponent? {cs : List Char} {e : Int} (h : exponent? cs = some e) :
    ∃ exponent : Option WrittenExponent, (∀ x ∈ exponent, x.WellFormed) ∧
      cs = WrittenDecimal.exponentSource exponent := by
  cases cs with
  | nil => exact ⟨none, by simp, rfl⟩
  | cons mark rest =>
    rw [exponent?] at h
    split at h
    · next hmark =>
      obtain ⟨sign, hsource, -⟩ := exists_sign rest
      have hdigits := all_isDigit_spanDigits (spanSign rest).2
      have happend := append_spanDigits (spanSign rest).2
      split at h
      · simp at h
      · next digits hne hspan =>
        rw [hspan] at hdigits happend
        have happend : digits = (spanSign rest).2 := (List.append_nil digits).symm.trans happend
        refine ⟨some ⟨mark, sign, digits⟩, ?_, ?_⟩
        · rintro _ ⟨⟩
          exact ⟨hmark, hne, hdigits⟩
        · show mark :: rest = mark :: (sign.source ++ digits)
          rw [happend, ← hsource]
      · simp at h
    · simp at h

/-! ## Decimals -/

namespace WrittenDecimal

theorem stops_exponentSource {exponent : Option WrittenExponent}
    (h : ∀ x ∈ exponent, x.WellFormed) {p : Char → Bool} (hlower : p 'e' = false)
    (hupper : p 'E' = false) : Stops p (exponentSource exponent) := by
  cases exponent with
  | none => exact stops_nil
  | some exponent =>
    rcases (h exponent rfl).mark with hmark | hmark
    · exact stops_cons (by rwa [hmark])
    · exact stops_cons (by rwa [hmark])

theorem stops_fractionSource {fraction : Option (List Char)} {rest : List Char} {p : Char → Bool}
    (hpoint : p '.' = false) (hrest : Stops p rest) :
    Stops p (fractionSource fraction ++ rest) := by
  cases fraction with
  | none => exact hrest
  | some digits => exact stops_cons hpoint

theorem spanFraction_source_append {fraction : Option (List Char)} {rest : List Char}
    (hdigits : ∀ c ∈ fraction.getD [], c.isDigit = true) (hrest : Stops Char.isDigit rest)
    (hpoint : Stops (· == '.') rest) :
    spanFraction (fractionSource fraction ++ rest) = (fraction.getD [], rest) := by
  cases fraction with
  | some digits => exact Text.spanDigits_append hdigits hrest
  | none =>
    cases rest with
    | nil => rfl
    | cons c rest =>
      have hc : c ≠ '.' := by simpa using hpoint c rfl
      show spanFraction (c :: rest) = _
      unfold spanFraction
      split
      · next heq => exact absurd (List.cons.inj heq).1 hc
      · rfl

theorem exists_fraction (cs : List Char) :
    ∃ fraction : Option (List Char), cs = fractionSource fraction ++ (spanFraction cs).2 ∧
      (spanFraction cs).1 = fraction.getD [] ∧ ∀ c ∈ fraction.getD [], c.isDigit = true := by
  unfold spanFraction
  split
  · next rest =>
    exact ⟨some (spanDigits rest).1, congrArg ('.' :: ·) (append_spanDigits rest).symm, rfl,
      all_isDigit_spanDigits rest⟩
  · exact ⟨none, rfl, rfl, by simp⟩

/-- The decimal that a written one is read as. -/
def decimal (d : WrittenDecimal) : Decimal :=
  .ofDigits d.sign.isNegative d.digits (exponentValue d.exponent - (d.fraction.getD []).length)

theorem ofText?_source {d : WrittenDecimal} (h : d.WellFormed) :
    Decimal.ofText? d.source = some d.decimal := by
  obtain ⟨sign, whole, fraction, exponent⟩ := d
  obtain ⟨hne, hdigits, hexponent⟩ := h
  obtain ⟨hwhole, hfraction⟩ := List.forall_mem_append.mp hdigits
  let afterFraction := exponentSource exponent
  let afterWhole := fractionSource fraction ++ afterFraction
  have hstops : ∀ p : Char → Bool, p '.' = false → p 'e' = false → p 'E' = false →
      Stops p afterWhole := fun p hpoint hlower hupper =>
    stops_fractionSource hpoint (stops_exponentSource hexponent hlower hupper)
  have hsign : spanSign (sign.source ++ (whole ++ afterWhole)) =
      (sign.isNegative, whole ++ afterWhole) :=
    sign.spanSign_source_append
      (stops_isSign_of_digits hwhole fun _ => hstops _ (by decide) (by decide) (by decide))
  have hspanWhole : spanDigits (whole ++ afterWhole) = (whole, afterWhole) :=
    Text.spanDigits_append hwhole (hstops _ (by decide) (by decide) (by decide))
  have hspanFraction : spanFraction afterWhole = (fraction.getD [], afterFraction) :=
    spanFraction_source_append hfraction (stops_exponentSource hexponent (by decide) (by decide))
      (stops_exponentSource hexponent (by decide) (by decide))
  have hspanExponent : exponent? afterFraction = some (exponentValue exponent) := by
    cases exponent with
    | none => rfl
    | some exponent => exact exponent?_source (hexponent exponent rfl)
  show Decimal.ofText? (sign.source ++ (whole ++ afterWhole)) = _
  rw [Decimal.ofText?, hsign]
  simp only [hspanWhole, hspanFraction, hspanExponent]
  rw [if_neg (show ¬whole ++ fraction.getD [] = [] from hne)]
  rfl

/-- What is read as a decimal is one as it is written. -/
theorem exists_of_ofText? {cs : List Char} {decimal : Decimal}
    (h : Decimal.ofText? cs = some decimal) :
    ∃ d : WrittenDecimal, d.WellFormed ∧ cs = d.source := by
  obtain ⟨sign, hsign, -⟩ := exists_sign cs
  have hwhole := append_spanDigits (spanSign cs).2
  have hdigits := all_isDigit_spanDigits (spanSign cs).2
  obtain ⟨fraction, hfraction, hfractionDigits, hfractionAll⟩ :=
    exists_fraction (spanDigits (spanSign cs).2).2
  rw [Decimal.ofText?] at h
  simp only at h
  split at h
  · simp at h
  · next hne =>
    obtain ⟨e, hexponent, -⟩ := Option.map_eq_some_iff.mp h
    obtain ⟨exponent, hexponents, hsource⟩ := exists_of_exponent? hexponent
    rw [hfractionDigits] at hne
    refine ⟨⟨sign, (spanDigits (spanSign cs).2).1, fraction, exponent⟩, ⟨hne, ?_, hexponents⟩, ?_⟩
    · exact List.forall_mem_append.mpr ⟨hdigits, hfractionAll⟩
    · calc cs = sign.source ++ (spanSign cs).2 := hsign
        _ = sign.source ++ ((spanDigits (spanSign cs).2).1 ++ (spanDigits (spanSign cs).2).2) := by
            rw [hwhole]
        _ = sign.source ++ ((spanDigits (spanSign cs).2).1 ++
              (fractionSource fraction ++ exponentSource exponent)) := by
            rw [← hsource, ← hfraction]

/-- A decimal is read as the number nearest to its value. -/
theorem isNearest_toBinary64_decimal (d : WrittenDecimal) :
    d.decimal.toBinary64.IsNearest d.sign.isNegative d.value := by
  have hnearest := d.decimal.isNearest_toBinary64
  rwa [decimal, Decimal.negative_ofDigits, Decimal.magnitude_ofDigits] at hnearest

/-- The characters with which decimals are written. -/
def isDecimal (c : Char) : Bool :=
  c.isDigit || isSign c || c == '.' || c == 'e' || c == 'E'

theorem all_isDecimal_source {d : WrittenDecimal} (h : d.WellFormed) :
    ∀ c ∈ d.source, isDecimal c = true := by
  have hsign : ∀ sign : Sign, ∀ c ∈ sign.source, isDecimal c = true := by
    intro sign
    cases sign with
    | none => exact List.forall_mem_nil _
    | plus => exact List.forall_mem_singleton.mpr rfl
    | minus => exact List.forall_mem_singleton.mpr rfl
  have hdigit : ∀ {c : Char}, c.isDigit = true → isDecimal c = true := by
    intro c hc
    simp [isDecimal, hc]
  obtain ⟨hwhole, hfraction⟩ := List.forall_mem_append.mp h.digits
  refine List.forall_mem_append.mpr ⟨hsign d.sign, List.forall_mem_append.mpr
    ⟨fun c hc => hdigit (hwhole c hc), List.forall_mem_append.mpr ⟨?_, ?_⟩⟩⟩
  · cases hd : d.fraction with
    | none => simp [fractionSource]
    | some digits =>
      rw [hd] at hfraction
      exact List.forall_mem_cons.mpr ⟨by decide, fun c hc => hdigit (hfraction c hc)⟩
  · cases hd : d.exponent with
    | none => simp [exponentSource]
    | some exponent =>
      obtain ⟨hmark, -, hdigits⟩ := h.exponent exponent hd
      refine List.forall_mem_cons.mpr ⟨?_, List.forall_mem_append.mpr
        ⟨hsign exponent.sign, fun c hc => hdigit (hdigits c hc)⟩⟩
      rcases hmark with hmark | hmark <;> rw [hmark] <;> decide

end WrittenDecimal

end Criteria.Number
