import Criteria.Proofs.Comparisons
import Criteria.Proofs.Integers
import Criteria.Proofs.Rendering

/-!
# Integers against thresholds

A rule that compares a field with digits means an order of integers, and what it compares are the
numbers nearest to them. Those are never in the contrary order, but different integers may become
the same number. So a relation that allows equality holds of the numbers where it holds of the
integers, and another one only there; up to `2 ^ 53` every relation holds of the numbers iff it
holds of the integers (`integers_are_compared_with_threshold`). An integer that a record gives as a
text makes no difference.
-/

namespace Criteria

open Number (Binary64 natOfDigits)

/-! ## Relations of integers -/

namespace Relation

/-- The relation holds of two integers. -/
def Compares : Relation → Int → Int → Prop
  | eqEq, v, w | eq, v, w => v = w
  | ne, v, w => v ≠ w
  | gt, v, w => w < v
  | lt, v, w => v < w
  | ge, v, w => w ≤ v
  | le, v, w => v ≤ w

theorem admits_compare_iff (relation : Relation) (v w : Int) :
    relation.admits (some (compare v w)) = true ↔ relation.Compares v w := by
  rcases lt_trichotomy v w with hlt | rfl | hgt
  · rw [compare_lt_iff_lt.mpr hlt]
    cases relation <;> simp [admits, Compares] <;> omega
  · rw [compare_eq_iff_eq.mpr rfl]
    cases relation <;> simp [admits, Compares]
  · rw [compare_gt_iff_gt.mpr hgt]
    cases relation <;> simp [admits, Compares] <;> omega

variable {relation : Relation} {v w : Int}

/-- A relation without equality does not hold of the numbers of two integers of which it does not
hold. -/
theorem compares_of_admits (hstrict : relation ∈ [ne, gt, lt])
    (h : relation.admits ((Binary64.ofInt v).compare? (.ofInt w)) = true) :
    relation.Compares v w := by
  rcases Binary64.compare?_ofInt_cases v w with horder | hequal
  · rw [horder] at h
    exact (relation.admits_compare_iff v w).mp h
  · rw [hequal, admits_some_eq, decide_eq_true_iff] at h
    -- equal numbers are in no such relation
    cases relation <;> simp at hstrict h

/-- A relation with equality holds of the numbers of two integers if it holds of them. -/
theorem admits_of_compares (hweak : relation ∈ [eqEq, eq, ge, le]) (h : relation.Compares v w) :
    relation.admits ((Binary64.ofInt v).compare? (.ofInt w)) = true := by
  rcases Binary64.compare?_ofInt_cases v w with horder | hequal
  · rw [horder]
    exact (relation.admits_compare_iff v w).mpr h
  · rw [hequal, admits_some_eq]
    exact decide_eq_true hweak

/-- Up to `2 ^ 53` a relation holds of the numbers of two integers iff it holds of them. -/
theorem admits_iff_compares (hv : v.natAbs ≤ 2 ^ 53) (hw : w.natAbs ≤ 2 ^ 53) :
    relation.admits ((Binary64.ofInt v).compare? (.ofInt w)) = true ↔ relation.Compares v w := by
  rw [Binary64.compare?_ofInt_of_le hv hw, admits_compare_iff]

end Relation

/-! ## Integers in rules and records -/

/-- The ways in which a record gives an integer to a field: as a number and as a text. -/
def Value.formsOf (v : Int) : List Value :=
  [.number (.ofInt v), .text (toString v)]

/-- However an integer is given, it is compared as its number. -/
theorem Value.relate?_of_mem_formsOf {v : Int} {value : Value} (h : value ∈ formsOf v)
    (number : Binary64) :
    value.relate? (.number number) = (Binary64.ofInt v).compare? number := by
  rcases List.mem_pair.mp h with rfl | rfl
  · rfl
  · show (Binary64.ofText (toString v)).compare? number = _
    rw [Binary64.ofText_toString]

/-- Integers against a threshold. A comparison of a field with digits compiles to one condition, and
its verdict is the same for an integer as a number and as a text. A relation without equality holds
only if it holds of the integers, one with equality if it does, and every relation iff it does where
neither is beyond `2 ^ 53`. -/
theorem integers_are_compared_with_threshold (policy : Policy) (phrase : Phrase)
    (h : phrase.WellFormed)
    (hkeyword : ∀ connective : Connective, phrase.field ≠ connective.word.toList)
    (hne : phrase.spelling.body ≠ [])
    (hdigits : ∀ c ∈ phrase.spelling.body, c.isDigit = true) (v : Int) :
    let threshold := natOfDigits phrase.spelling.body
    Rule.compile policy (String.ofList phrase.source) = .ok (.test phrase.condition) ∧
    ∃ verdict,
      (∀ (record : Record) (value : Value), value ∈ Value.formsOf v →
        record.get? (String.ofList phrase.field) = some value →
        (Formula.test phrase.condition).eval record = .ok verdict) ∧
      (phrase.relation ∈ [Relation.ne, .gt, .lt] → verdict = true →
        phrase.relation.Compares v threshold) ∧
      (phrase.relation ∈ [Relation.eqEq, .eq, .ge, .le] → phrase.relation.Compares v threshold →
        verdict = true) ∧
      (v.natAbs ≤ 2 ^ 53 → threshold ≤ 2 ^ 53 →
        (verdict = true ↔ phrase.relation.Compares v threshold)) := by
  intro threshold
  let verdict := phrase.relation.admits ((Binary64.ofInt v).compare? (.ofInt threshold))
  refine ⟨Rule.compile_source policy h hkeyword, verdict, ?_, ?_, ?_, ?_⟩
  · intro record value hform hvalue
    rw [Phrase.eval_condition hvalue, Spelling.literal_of_digits hne hdigits,
      Binary64.ofNat_eq_ofInt]
    exact congrArg (fun order => Except.ok (phrase.relation.admits order))
      (Value.relate?_of_mem_formsOf hform (.ofInt threshold))
  · exact Relation.compares_of_admits
  · exact Relation.admits_of_compares
  · intro hv hthreshold
    exact Relation.admits_iff_compares hv hthreshold

/-- Zeros in front of the digits of a quoted threshold do not matter, and the text of an integer is
compared like the integer. -/
theorem integer_at_threshold_with_zeros :
    let condition : Condition := ⟨"n", .ge, .number (.ofNat 42)⟩
    Rule.compile {} "n>='0042'" = .ok (.test condition) ∧
      (Formula.test condition).eval (Record.ofList [("n", .number (.ofInt 42))]) = .ok true ∧
      (Formula.test condition).eval (Record.ofList [("n", .text "42")]) = .ok true := by
  intro condition
  let phrase : Phrase := ⟨['n'], [], .ge, [], .quoted .single "0042".toList⟩
  have hphrase : phrase.WellFormed := by
    refine ⟨by decide, List.forall_mem_nil _, List.forall_mem_nil _, ?_⟩
    show '\'' ∉ "0042".toList
    decide
  have hkeyword : ∀ connective : Connective, phrase.field ≠ connective.word.toList := by
    intro connective
    cases connective <;> decide
  have hdigits : ∀ c ∈ phrase.spelling.body, c.isDigit = true :=
    List.all_eq_true.mp (by decide)
  obtain ⟨hcompile, verdict, heval, -, hequal, -⟩ :=
    integers_are_compared_with_threshold {} phrase hphrase hkeyword (by decide) hdigits 42
  have hverdict : verdict = true := hequal (by decide) (le_refl 42)
  have hsource : String.ofList phrase.source = "n>='0042'" := by decide
  have hcondition : phrase.condition = condition := by decide +kernel
  rw [hsource, hcondition] at hcompile
  rw [hcondition, hverdict] at heval
  exact ⟨hcompile, heval _ (.number (.ofInt 42)) (by decide +kernel) (by decide +kernel),
    heval _ (.text "42") (by decide +kernel) (by decide +kernel)⟩

/-- Beyond `2 ^ 53` an integer may seem to have reached a threshold that is greater by one. -/
example :
    Formula.eval (Record.ofList [("n", .text "9007199254740992")])
      (.test ⟨"n", .ge, .number (.ofNat 9007199254740993)⟩) = .ok true := by
  decide +kernel

end Criteria
