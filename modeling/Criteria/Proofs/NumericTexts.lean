import Mathlib.Data.List.Forall2
import Mathlib.Data.Nat.Digits.Defs
import Criteria.Number.Reading
import Criteria.Proofs.WrittenDecimals

/-!
# The texts that stand for numbers

How a number may be written is said here without reading: nothing at all, an infinity, an integer
in an announced base, or a decimal (`Written`). A text that, but for the blanks around it, is
written in one of these ways is read as the number nearest to the value that is written, and every
other text is read as no number (`text_is_read_as_written`). An integer in an announced base has no
sign but for one plus sign, which may stand between the announcement and the digits.
-/

namespace Criteria.Number

/-! ## Numbers as they are written -/

/-- The bases in which an integer may be written behind an announcement. -/
inductive Base where
  | sixteen
  | eight
  | two

namespace Base

def value : Base → Nat
  | sixteen => 16
  | eight => 8
  | two => 2

/-- The letters that announce the base, behind a zero. -/
def marks : Base → List Char
  | sixteen => ['x', 'X']
  | eight => ['o', 'O']
  | two => ['b', 'B']

end Base

/-- The character is the digit with a value, in either case. -/
def IsDigitOf (value : Nat) (c : Char) : Prop :=
  c = Nat.digitChar value ∨ c = (Nat.digitChar value).toUpper

instance (value : Nat) (c : Char) : Decidable (IsDigitOf value c) :=
  inferInstanceAs (Decidable (_ ∨ _))

/-- The digits are those of the base with the values. -/
def AreDigitsOf (base : Base) : List Char → List Nat → Prop :=
  List.Forall₂ fun c value => value < base.value ∧ IsDigitOf value c

/-- An integer behind the announcement of its base. A plus sign may stand before the digits. -/
structure WrittenInteger where
  base : Base
  mark : Char
  plus : Bool
  digits : List Char
  values : List Nat

namespace WrittenInteger

/-- What is written behind the announcement. -/
def digitsSource (n : WrittenInteger) : List Char :=
  if n.plus then '+' :: n.digits else n.digits

def source (n : WrittenInteger) : List Char :=
  '0' :: n.mark :: n.digitsSource

/-- The value of an integer, of which the last digit is that of the ones. -/
def value (n : WrittenInteger) : Nat :=
  Nat.ofDigits n.base.value n.values.reverse

structure WellFormed (n : WrittenInteger) : Prop where
  mark : n.mark ∈ n.base.marks
  digits_ne : n.digits ≠ []
  digits : AreDigitsOf n.base n.digits n.values
  value_lt : n.value < 2 ^ 64

end WrittenInteger

/-- A number as a text writes it. -/
inductive Written where
  | nothing
  | infinity (sign : Sign)
  | integer (n : WrittenInteger)
  | decimal (d : WrittenDecimal)

namespace Written

def source : Written → List Char
  | nothing => []
  | infinity sign => sign.source ++ "Infinity".toList
  | integer n => n.source
  | decimal d => d.source

def WellFormed : Written → Prop
  | nothing | infinity _ => True
  | integer n => n.WellFormed
  | decimal d => d.WellFormed

/-- The number is the one that is meant: zero where nothing is written, else the nearest one to what
is written. -/
def Means (number : Binary64) : Written → Prop
  | nothing => number = .ofRank false 0
  | infinity sign => number = .infinite sign.isNegative
  | integer n => number.IsNearest false n.value
  | decimal d => number.IsNearest d.sign.isNegative d.value

end Written

/-! ## Integers in an announced base -/

/-- Where the characters of a range are digits one behind the other, a character of the range is the
digit of its place. -/
theorem isDigitOf_of_range {first last c : Char} (start : Nat)
    (hcount : last.toNat - first.toNat + start < 16)
    (hdigits : ∀ place < last.toNat - first.toNat + 1,
      IsDigitOf (place + start) (Char.ofNat (first.toNat + place)))
    (hrange : first ≤ c ∧ c ≤ last) :
    c.toNat - first.toNat + start < 16 ∧ IsDigitOf (c.toNat - first.toNat + start) c := by
  have hfirst : first.toNat ≤ c.toNat := hrange.1
  have hlast : c.toNat ≤ last.toNat := hrange.2
  refine ⟨by omega, ?_⟩
  have hdigit := hdigits (c.toNat - first.toNat) (by omega)
  rwa [Nat.add_sub_cancel' hfirst, Char.ofNat_toNat] at hdigit

theorem digitValue?_eq_some_iff {c : Char} {value : Nat} :
    digitValue? c = some value ↔ value < 16 ∧ IsDigitOf value c := by
  constructor
  · intro h
    rw [digitValue?] at h
    split at h
    · next hrange =>
      obtain rfl := Option.some.inj h
      exact isDigitOf_of_range 0 (by decide) (by decide) hrange
    · split at h
      · next hrange =>
        obtain rfl := Option.some.inj h
        exact isDigitOf_of_range 10 (by decide) (by decide) hrange
      · split at h
        · next hrange =>
          obtain rfl := Option.some.inj h
          exact isDigitOf_of_range 10 (by decide) (by decide) hrange
        · simp at h
  · rintro ⟨hlt, rfl | rfl⟩
    · revert value
      decide
    · revert value
      decide

theorem digitInBase?_eq_some_iff (base : Base) {c : Char} {value : Nat} :
    digitInBase? base.value c = some value ↔ value < base.value ∧ IsDigitOf value c := by
  have hbase : base.value ≤ 16 := by
    cases base <;> decide
  rw [digitInBase?, Option.filter_eq_some_iff, digitValue?_eq_some_iff, decide_eq_true_iff]
  constructor
  · rintro ⟨⟨-, hdigit⟩, hlt⟩
    exact ⟨hlt, hdigit⟩
  · rintro ⟨hlt, hdigit⟩
    exact ⟨⟨Nat.lt_of_lt_of_le hlt hbase, hdigit⟩, hlt⟩

/-- What reading the digits behind a value gives. -/
theorem foldlM_digits_eq_some_iff (base : Base) {cs : List Char} {start n : Nat} :
    cs.foldlM (fun value c => (digitInBase? base.value c).map (value * base.value + ·)) start =
        some n ↔
      ∃ values, AreDigitsOf base cs values ∧
        n = values.foldl (fun value digit => value * base.value + digit) start := by
  induction cs generalizing start with
  | nil =>
    constructor
    · rintro h
      exact ⟨[], .nil, (Option.some.inj h).symm⟩
    · rintro ⟨_, ⟨⟩, rfl⟩
      rfl
  | cons c cs ih =>
    rw [List.foldlM_cons, Option.bind_eq_bind, Option.bind_eq_some_iff]
    constructor
    · rintro ⟨_, hfirst, hrest⟩
      obtain ⟨digit, hdigit, rfl⟩ := Option.map_eq_some_iff.mp hfirst
      obtain ⟨values, hvalues, rfl⟩ := ih.mp hrest
      exact ⟨digit :: values, .cons ((digitInBase?_eq_some_iff base).mp hdigit) hvalues, rfl⟩
    · rintro ⟨_, hdigits, rfl⟩
      cases hdigits with
      | @cons _ digit _ values hdigit hvalues =>
        refine ⟨start * base.value + digit, ?_, ih.mpr ⟨values, hvalues, rfl⟩⟩
        rw [(digitInBase?_eq_some_iff base).mpr hdigit, Option.map_some]

theorem natInBase?_eq_some_iff (base : Base) {cs : List Char} {n : Nat} :
    natInBase? base.value cs = some n ↔
      ∃ values, AreDigitsOf base cs values ∧ n = Nat.ofDigits base.value values.reverse := by
  have hvalue : ∀ values : List Nat, Nat.ofDigits base.value values.reverse =
      values.foldl (fun value digit => value * base.value + digit) 0 := by
    intro values
    rw [Nat.ofDigits_eq_foldr, List.foldr_reverse]
    simp only [Nat.cast_id, Nat.mul_comm, Nat.add_comm]
  rw [natInBase?, foldlM_digits_eq_some_iff]
  simp only [hvalue]

/-- The digits of a base do not start with a plus sign. -/
theorem ne_plus_of_areDigitsOf {base : Base} {c : Char} {cs : List Char} {values : List Nat}
    (h : AreDigitsOf base (c :: cs) values) : c ≠ '+' := by
  rintro rfl
  cases h with
  | @cons _ digit _ _ hdigit _ =>
    have hnone := (digitInBase?_eq_some_iff base).mpr hdigit
    simp [digitInBase?, show digitValue? '+' = none from rfl] at hnone

/-- The integer with digits that have no sign. -/
def unsignedInBase? (base : Base) (digits : List Char) : Option Nat :=
  if digits = [] then none else (natInBase? base.value digits).filter (· < 2 ^ 64)

theorem uint64InBase?_plus (base : Base) (digits : List Char) :
    uint64InBase? base.value ('+' :: digits) = unsignedInBase? base digits := rfl

theorem uint64InBase?_of_ne_plus {base : Base} {cs : List Char} (h : ∀ digits, cs ≠ '+' :: digits) :
    uint64InBase? base.value cs = unsignedInBase? base cs := by
  rw [uint64InBase?]
  · rfl
  · exact h

theorem unsignedInBase?_eq_some_iff {base : Base} {digits : List Char} {value : Nat} :
    unsignedInBase? base digits = some value ↔
      digits ≠ [] ∧ (∃ values, AreDigitsOf base digits values ∧
        value = Nat.ofDigits base.value values.reverse) ∧ value < 2 ^ 64 := by
  rw [unsignedInBase?, ← natInBase?_eq_some_iff]
  split
  · next hnil => simp [hnil]
  · next hne =>
    rw [Option.filter_eq_some_iff, decide_eq_true_iff]
    exact ⟨fun h => ⟨hne, h⟩, fun h => h.2⟩

namespace WrittenInteger

theorem announcedBase?_source {n : WrittenInteger} (h : n.WellFormed) :
    announcedBase? n.source = some (n.base.value, n.digitsSource) := by
  obtain ⟨base, mark, plus, digits, values⟩ := n
  have hmark : mark ∈ base.marks := h.mark
  cases base with
  | sixteen =>
    rcases List.mem_pair.mp hmark with rfl | rfl <;> rfl
  | eight =>
    rcases List.mem_pair.mp hmark with rfl | rfl <;> rfl
  | two =>
    rcases List.mem_pair.mp hmark with rfl | rfl <;> rfl

theorem uint64InBase?_digitsSource {n : WrittenInteger} (h : n.WellFormed) :
    uint64InBase? n.base.value n.digitsSource = some n.value := by
  have hdigits : unsignedInBase? n.base n.digits = some n.value :=
    unsignedInBase?_eq_some_iff.mpr ⟨h.digits_ne, ⟨n.values, h.digits, rfl⟩, h.value_lt⟩
  rw [digitsSource]
  split
  · rw [uint64InBase?_plus, hdigits]
  · have hstart : ∀ rest, n.digits ≠ '+' :: rest := by
      intro rest hrest
      have hfirst := h.digits
      rw [hrest] at hfirst
      exact ne_plus_of_areDigitsOf hfirst rfl
    rw [uint64InBase?_of_ne_plus hstart, hdigits]

/-- What is read as an integer behind the announcement of a base is one as it is written. -/
theorem exists_of_uint64InBase? {base : Base} {mark : Char} (hmark : mark ∈ base.marks)
    {cs : List Char} {value : Nat} (h : uint64InBase? base.value cs = some value) :
    ∃ n : WrittenInteger, n.WellFormed ∧ '0' :: mark :: cs = n.source := by
  by_cases hplus : ∃ digits, cs = '+' :: digits
  · obtain ⟨digits, rfl⟩ := hplus
    rw [uint64InBase?_plus] at h
    obtain ⟨hne, ⟨values, hvalues, rfl⟩, hlt⟩ := unsignedInBase?_eq_some_iff.mp h
    exact ⟨⟨base, mark, true, digits, values⟩, ⟨hmark, hne, hvalues, hlt⟩, rfl⟩
  · rw [uint64InBase?_of_ne_plus fun digits hcs => hplus ⟨digits, hcs⟩] at h
    obtain ⟨hne, ⟨values, hvalues, rfl⟩, hlt⟩ := unsignedInBase?_eq_some_iff.mp h
    exact ⟨⟨base, mark, false, cs, values⟩, ⟨hmark, hne, hvalues, hlt⟩, rfl⟩

end WrittenInteger

/-- A base is announced by a zero and one of its letters. -/
theorem exists_of_announcedBase? {cs digits : List Char} {value : Nat}
    (h : announcedBase? cs = some (value, digits)) :
    ∃ (base : Base) (mark : Char), mark ∈ base.marks ∧ value = base.value ∧
      cs = '0' :: mark :: digits := by
  unfold announcedBase? at h
  split at h
  · next mark rest =>
    split at h
    · next hmark =>
      obtain ⟨rfl, rfl⟩ := Prod.mk.inj (Option.some.inj h)
      exact ⟨.sixteen, mark, List.mem_pair.mpr hmark, rfl, rfl⟩
    · split at h
      · next hmark =>
        obtain ⟨rfl, rfl⟩ := Prod.mk.inj (Option.some.inj h)
        exact ⟨.eight, mark, List.mem_pair.mpr hmark, rfl, rfl⟩
      · split at h
        · next hmark =>
          obtain ⟨rfl, rfl⟩ := Prod.mk.inj (Option.some.inj h)
          exact ⟨.two, mark, List.mem_pair.mpr hmark, rfl, rfl⟩
        · simp at h
  · simp at h

/-! ## All forms -/

/-- The names of the infinities. -/
theorem infinity?_eq_some_iff {cs : List Char} {number : Binary64} :
    infinity? cs = some number ↔
      ∃ sign : Sign, cs = (Written.infinity sign).source ∧ number = .infinite sign.isNegative := by
  constructor
  · intro h
    unfold infinity? at h
    split at h
    · next hname =>
      obtain rfl := Option.some.inj h
      rcases hname with rfl | rfl
      · exact ⟨.none, rfl, rfl⟩
      · exact ⟨.plus, rfl, rfl⟩
    · split at h
      · next hname =>
        obtain rfl := Option.some.inj h
        exact ⟨.minus, hname, rfl⟩
      · simp at h
  · rintro ⟨sign, rfl, rfl⟩
    cases sign <;> rfl

theorem infinity?_eq_none_of_not_mem {cs : List Char} (h : 'I' ∉ cs) : infinity? cs = none := by
  rw [Option.eq_none_iff_forall_ne_some]
  intro number hnumber
  obtain ⟨sign, rfl, -⟩ := infinity?_eq_some_iff.mp hnumber
  cases sign <;> exact h (by decide)

theorem announcedBase?_eq_none_of_isDecimal {cs : List Char}
    (h : ∀ c ∈ cs, WrittenDecimal.isDecimal c = true) : announcedBase? cs = none := by
  rw [Option.eq_none_iff_forall_ne_some]
  rintro ⟨value, digits⟩ hbase
  obtain ⟨base, mark, hmark, -, rfl⟩ := exists_of_announcedBase? hbase
  have hnot : ∀ c ∈ base.marks, WrittenDecimal.isDecimal c = false := by
    cases base <;> exact List.forall_mem_cons.mpr ⟨rfl, List.forall_mem_singleton.mpr rfl⟩
  have hdecimal := h mark (by simp)
  rw [hnot mark hmark] at hdecimal
  simp at hdecimal

/-- What is written as a number is read as the number that is meant. -/
theorem exists_numberOfStripped_source {written : Written} (h : written.WellFormed) :
    ∃ number, numberOfStripped written.source = some number ∧ written.Means number := by
  cases written with
  | nothing =>
    refine ⟨.ofNat 0, rfl, ?_⟩
    show Binary64.ofUnits false (0 * unitsOfOne) 1 = _
    rw [Binary64.ofUnits_eq, nearestRank_eq_zero (by omega)]
  | infinity sign =>
    refine ⟨.infinite sign.isNegative, ?_, rfl⟩
    cases sign <;> rfl
  | integer n =>
    have h : n.WellFormed := h
    refine ⟨.ofNat n.value, ?_, Binary64.isNearest_ofNat n.value⟩
    have hinfinity : infinity? n.source = none := by
      rw [WrittenInteger.source]
      rfl
    show numberOfStripped n.source = _
    rw [numberOfStripped, if_neg (by simp [WrittenInteger.source]), hinfinity,
      n.announcedBase?_source h]
    simp only
    rw [WrittenInteger.uint64InBase?_digitsSource h, Option.map_some]
  | decimal d =>
    have h : d.WellFormed := h
    refine ⟨d.decimal.toBinary64, ?_, d.isNearest_toBinary64_decimal⟩
    have hall := WrittenDecimal.all_isDecimal_source h
    have hinfinity : infinity? d.source = none :=
      infinity?_eq_none_of_not_mem fun hmem => by
        have hI := hall 'I' hmem
        simp [show WrittenDecimal.isDecimal 'I' = false from by decide] at hI
    have hne : d.source ≠ [] := by
      intro hnil
      have hread := WrittenDecimal.ofText?_source h
      rw [hnil] at hread
      simp [Decimal.ofText?, spanSign, spanDigits, spanFraction] at hread
    show numberOfStripped d.source = _
    rw [numberOfStripped, if_neg hne, hinfinity, announcedBase?_eq_none_of_isDecimal hall]
    simp only
    rw [WrittenDecimal.ofText?_source h, Option.map_some]

/-- What is read as a number is written as one. -/
theorem exists_of_numberOfStripped {cs : List Char} {number : Binary64}
    (h : numberOfStripped cs = some number) :
    ∃ written : Written, written.WellFormed ∧ cs = written.source := by
  unfold numberOfStripped at h
  split at h
  · next hnil => exact ⟨.nothing, trivial, hnil⟩
  · split at h
    · next hinfinity =>
      obtain ⟨sign, hsource, -⟩ := infinity?_eq_some_iff.mp hinfinity
      exact ⟨.infinity sign, trivial, hsource⟩
    · next hbase =>
      obtain ⟨base, mark, hmark, rfl, rfl⟩ := exists_of_announcedBase? hbase
      obtain ⟨value, hvalue, -⟩ := Option.map_eq_some_iff.mp h
      obtain ⟨n, hn, hsource⟩ := WrittenInteger.exists_of_uint64InBase? hmark hvalue
      exact ⟨.integer n, hn, hsource⟩
    · obtain ⟨decimal, hdecimal, -⟩ := Option.map_eq_some_iff.mp h
      obtain ⟨d, hd, hsource⟩ := WrittenDecimal.exists_of_ofText? hdecimal
      exact ⟨.decimal d, hd, hsource⟩

/-- A text that is written as a number, but for the blanks around it, is read as the number that is
meant, and any other text as no number. -/
theorem text_is_read_as_written (text : String) :
    (∀ written : Written, written.WellFormed → Text.strip text.toList = written.source →
      written.Means (Binary64.ofText text)) ∧
    ((∀ written : Written, written.WellFormed → Text.strip text.toList ≠ written.source) →
      Binary64.ofText text = .nan) := by
  constructor
  · intro written hwritten hsource
    obtain ⟨number, hnumber, hmeans⟩ := exists_numberOfStripped_source hwritten
    rw [Binary64.ofText, hsource, hnumber]
    exact hmeans
  · intro hnone
    have hread : numberOfStripped (Text.strip text.toList) = none := by
      rw [Option.eq_none_iff_forall_ne_some]
      intro number hnumber
      obtain ⟨written, hwritten, hsource⟩ := exists_of_numberOfStripped hnumber
      exact hnone written hwritten hsource
    rw [Binary64.ofText, hread]
    rfl

/-- The integer of `0x+1F`. -/
def thirtyOneBehindPlus : WrittenInteger :=
  ⟨.sixteen, 'x', true, ['1', 'F'], [1, 15]⟩

/-- A plus sign between the announcement of a base and the digits does not keep them from being
read. -/
theorem plus_behind_announcement_is_read :
    thirtyOneBehindPlus.WellFormed ∧
      Text.strip "0x+1F".toList = (Written.integer thirtyOneBehindPlus).source ∧
      (Binary64.ofText "0x+1F").IsNearest false 31 ∧ Binary64.ofText "0x+1F" ≠ .nan := by
  have hwell : thirtyOneBehindPlus.WellFormed := by
    refine ⟨by decide, by decide, ?_, by decide⟩
    exact .cons ⟨by decide, .inl rfl⟩ (.cons ⟨by decide, .inr (by decide)⟩ .nil)
  have hsource : Text.strip "0x+1F".toList = (Written.integer thirtyOneBehindPlus).source := by
    decide
  have hmeans := (text_is_read_as_written "0x+1F").1 (.integer thirtyOneBehindPlus) hwell hsource
  have hnearest : (Binary64.ofText "0x+1F").IsNearest false 31 := hmeans
  exact ⟨hwell, hsource, hnearest, hnearest.ne_nan⟩

end Criteria.Number
