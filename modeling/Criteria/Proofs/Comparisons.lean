import Criteria.Evaluation
import Criteria.Phrase
import Criteria.Proofs.Magnitudes

/-!
# Equality and order of values agree

A condition is decided by an equality of values or by their order, and the two are found in
different ways. Here they are brought together: what is not two texts is equal iff its numbers are
(`Value.looselyEqual_eq_equals`), and values are equal iff their order says so
(`Value.looselyEqual_eq_relate?`). So of less, equal and greater exactly one holds of two values,
unless a number is missing; then inequality holds and nothing else does.
-/

namespace Criteria

open Number (Binary64)

namespace Value

/-! ## Equality -/

/-- The value is a text. -/
def isText : Value → Bool
  | text _ => true
  | boolean _ | number _ => false

theorem exists_eq_text {x : Value} (h : x.isText = true) : ∃ value, x = text value := by
  cases x with
  | boolean x => simp [isText] at h
  | number x => simp [isText] at h
  | text x => exact ⟨x, rfl⟩

/-- Zero and one are different numbers, so booleans are equal iff their numbers are. -/
theorem equals_ofNat_toNat (x y : Bool) :
    (Binary64.ofNat x.toNat).equals (.ofNat y.toNat) = (x == y) := by
  cases x <;> cases y <;> decide +kernel

theorem equalsNumber_eq (x : Binary64) (y : Value) : equalsNumber x y = x.equals y.toNumber := by
  cases y <;> rfl

/-- Values that are not two texts are equal iff their numbers are. -/
theorem looselyEqual_eq_equals {x y : Value} (h : ¬ (x.isText = true ∧ y.isText = true)) :
    x.looselyEqual y = x.toNumber.equals y.toNumber := by
  cases x with
  | boolean x =>
    cases y with
    | boolean y => exact (equals_ofNat_toNat x y).symm
    | number y => exact equalsNumber_eq (boolean x).toNumber (number y)
    | text y => exact equalsNumber_eq (boolean x).toNumber (text y)
  | number x =>
    cases y with
    | boolean y =>
      exact (equalsNumber_eq (boolean y).toNumber (number x)).trans (Binary64.equals_comm _ _)
    | number y => rfl
    | text y => rfl
  | text x =>
    cases y with
    | boolean y =>
      exact (equalsNumber_eq (boolean y).toNumber (text x)).trans (Binary64.equals_comm _ _)
    | number y => exact Binary64.equals_comm _ _
    | text y => exact absurd ⟨rfl, rfl⟩ h

theorem looselyEqual_comm (x y : Value) : x.looselyEqual y = y.looselyEqual x := by
  by_cases h : x.isText = true ∧ y.isText = true
  · obtain ⟨x, rfl⟩ := exists_eq_text h.1
    obtain ⟨y, rfl⟩ := exists_eq_text h.2
    exact Bool.beq_comm
  · rw [looselyEqual_eq_equals h, looselyEqual_eq_equals fun hswap => h hswap.symm,
      Binary64.equals_comm]

/-! ## Order -/

/-- Two texts are always in an order, and other values are if both have numbers. -/
def Comparable (x y : Value) : Prop :=
  (x.isText = true ∧ y.isText = true) ∨ (x.toNumber ≠ .nan ∧ y.toNumber ≠ .nan)

theorem compareText_eq_eq_iff {x y : String} : compareText x y = .eq ↔ x = y := by
  unfold compareText
  split
  · next hlt =>
    have hne : x ≠ y := fun heq => String.lt_irrefl x (heq ▸ hlt)
    simp [hne]
  · split
    · next heq => simp [heq]
    · next hne => simp [hne]

/-- Values that are not two texts are in the order of their numbers. -/
theorem relate?_eq_compare? {x y : Value} (h : ¬ (x.isText = true ∧ y.isText = true)) :
    x.relate? y = x.toNumber.compare? y.toNumber := by
  cases x with
  | boolean x => rfl
  | number x => rfl
  | text x =>
    cases y with
    | boolean y => rfl
    | number y => rfl
    | text y => exact absurd ⟨rfl, rfl⟩ h

/-- The order calls two values equal iff they are. -/
theorem looselyEqual_eq_relate? (x y : Value) : x.looselyEqual y = (x.relate? y == some .eq) := by
  rw [Bool.eq_iff_iff, beq_iff_eq]
  by_cases h : x.isText = true ∧ y.isText = true
  · obtain ⟨x, rfl⟩ := exists_eq_text h.1
    obtain ⟨y, rfl⟩ := exists_eq_text h.2
    have horder : (text x).relate? (text y) = some (compareText x y) := rfl
    rw [horder, Option.some.injEq, compareText_eq_eq_iff]
    exact beq_iff_eq
  · rw [looselyEqual_eq_equals h, relate?_eq_compare? h, Binary64.compare?_eq_some_eq_iff]

/-- Values are in no order iff they are not comparable. -/
theorem relate?_eq_none_iff {x y : Value} : x.relate? y = none ↔ ¬ x.Comparable y := by
  by_cases h : x.isText = true ∧ y.isText = true
  · obtain ⟨x, rfl⟩ := exists_eq_text h.1
    obtain ⟨y, rfl⟩ := exists_eq_text h.2
    have horder : (text x).relate? (text y) = some (compareText x y) := rfl
    simp [horder, Comparable, h]
  · rw [relate?_eq_compare? h, Binary64.compare?_eq_none_iff, Comparable, or_iff_right h,
      not_and_or, not_not, not_not]

end Value

/-! ## Relations -/

/-- The relation holds of values that are in this order, or in none. -/
def Relation.admits : Relation → Option Ordering → Bool
  | eqEq, order | eq, order => order == some .eq
  | ne, order => order != some .eq
  | gt, order => order == some .gt
  | lt, order => order == some .lt
  | ge, order => order == some .gt || order == some .eq
  | le, order => order == some .lt || order == some .eq

/-- The relations that equal values are in. -/
theorem Relation.admits_some_eq (relation : Relation) :
    relation.admits (some .eq) = decide (relation ∈ [eqEq, eq, ge, le]) := by
  cases relation <;> rfl

/-- Whether a relation holds of two values is known from their order, for the relations of equality
too. -/
theorem Relation.holds_eq_admits (relation : Relation) (x y : Value) :
    relation.holds x y = relation.admits (x.relate? y) := by
  cases relation with
  | eqEq => exact Value.looselyEqual_eq_relate? x y
  | eq => exact Value.looselyEqual_eq_relate? x y
  | ne => exact congrArg (! ·) (Value.looselyEqual_eq_relate? x y)
  | gt => rfl
  | lt => rfl
  | ge => rfl
  | le => rfl

/-- A condition is judged by the order of the value in its field and its literal. -/
theorem Condition.eval_eq_admits {record : Record} {field : String} {value : Value}
    (h : record.get? field = some value) (relation : Relation) (literal : Literal) :
    (Condition.mk field relation literal).eval record =
      .ok (relation.admits (value.relate? literal.toValue)) := by
  rw [Condition.eval, h]
  exact congrArg Except.ok (relation.holds_eq_admits value literal.toValue)

/-- A condition that is written is judged so too. -/
theorem Phrase.eval_condition {phrase : Phrase} {record : Record} {value : Value}
    (h : record.get? (String.ofList phrase.field) = some value) :
    (Formula.test phrase.condition).eval record =
      .ok (phrase.relation.admits (value.relate? phrase.spelling.literal.toValue)) :=
  Condition.eval_eq_admits h phrase.relation phrase.spelling.literal

/-- The conditions on one field with one literal fit together: the two spellings of equality say the
same and inequality the contrary, and the relations that allow equality hold iff the strict one or
equality does. Of comparable values exactly one of less, equal and greater is true; of others only
inequality is. Equality is symmetric, and of values that are not two texts it is that of their
numbers. -/
theorem equality_agrees_with_order :
    (∀ (record : Record) (field : String) (value : Value) (literal : Literal),
      record.get? field = some value →
      ∃ verdict : Relation → Bool,
        (∀ relation, (Condition.mk field relation literal).eval record = .ok (verdict relation)) ∧
        verdict .eq = verdict .eqEq ∧ verdict .ne = !verdict .eqEq ∧
        verdict .ge = (verdict .gt || verdict .eqEq) ∧
        verdict .le = (verdict .lt || verdict .eqEq) ∧
        (value.Comparable literal.toValue → [Relation.lt, .eqEq, .gt].countP verdict = 1) ∧
        (¬ value.Comparable literal.toValue → ∀ relation, verdict relation = (relation == .ne))) ∧
    ∀ x y : Value, x.looselyEqual y = y.looselyEqual x ∧
      (¬ (x.isText = true ∧ y.isText = true) →
        x.looselyEqual y = x.toNumber.equals y.toNumber) := by
  refine ⟨?_, fun x y => ⟨Value.looselyEqual_comm x y, Value.looselyEqual_eq_equals⟩⟩
  intro record field value literal hvalue
  refine ⟨fun relation => relation.admits (value.relate? literal.toValue),
    fun relation => Condition.eval_eq_admits hvalue relation literal, ?_⟩
  have hnone : value.relate? literal.toValue = none ↔ ¬ value.Comparable literal.toValue :=
    Value.relate?_eq_none_iff
  -- all that is left depends on the order alone
  cases horder : value.relate? literal.toValue with
  | none =>
    have hincomparable := hnone.mp horder
    refine ⟨rfl, rfl, rfl, rfl, fun h => absurd h hincomparable, fun _ relation => ?_⟩
    cases relation <;> rfl
  | some order =>
    have hcomparable : value.Comparable literal.toValue := by
      by_contra h
      rw [hnone.mpr h] at horder
      simp at horder
    refine ⟨rfl, rfl, rfl, rfl, fun _ => ?_, fun h => absurd hcomparable h⟩
    cases order <;> rfl

/-- A text that stands for no number differs from every number, and is not before or after it. -/
theorem equality_of_text_without_number :
    let record := Record.ofList [("zip", .text "12a")]
    let literal := Literal.number (.ofNat 12)
    record.get? "zip" = some (.text "12a") ∧ ¬ (Value.text "12a").Comparable literal.toValue ∧
      ∀ relation, (Condition.mk "zip" relation literal).eval record = .ok (relation == .ne) := by
  intro record literal
  have hvalue : record.get? "zip" = some (.text "12a") := by decide
  have hincomparable : ¬ (Value.text "12a").Comparable literal.toValue := by
    have hnan : (Value.text "12a").toNumber = .nan := by decide +kernel
    simp [Value.Comparable, hnan, literal, Literal.toValue, Value.isText]
  obtain ⟨verdict, heval, -, -, -, -, -, hfalse⟩ :=
    equality_agrees_with_order.1 record "zip" (.text "12a") literal hvalue
  refine ⟨hvalue, hincomparable, fun relation => ?_⟩
  rw [heval, hfalse hincomparable]

end Criteria
