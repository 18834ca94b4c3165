import Criteria.Evaluation
import Criteria.Proofs.Outcome

/-!
# Verdicts

Whether a formula is true depends on which of its conditions are, as AND and OR are read. An
evaluation gives just that, provided that the record has values in all fields of the formula; it
looks at every condition from left to right, also where a side already decides, so the first field
that the record lacks is a fault and there is no other. What the record holds beside the fields of
the formula does not matter.
-/

namespace Criteria

open Outcome

/-! ## Truth -/

/-- The formula is true, given which conditions are. -/
def Formula.Holds (holds : Condition → Prop) : Formula → Prop
  | test condition => holds condition
  | join .and left right => left.Holds holds ∧ right.Holds holds
  | join .or left right => left.Holds holds ∨ right.Holds holds

/-- The record meets the condition: it has a value in the field, and the relation holds between
this value and the literal. -/
def Record.Meets (record : Record) (condition : Condition) : Prop :=
  ∃ value, record.get? condition.field = some value ∧
    condition.relation.holds value condition.value.toValue = true

/-- A connective makes of two truth values what it makes of the formulas that have them. -/
theorem Formula.holds_join_iff {holds : Condition → Prop} {left right : Formula} {x y : Bool}
    (hleft : x = true ↔ left.Holds holds) (hright : y = true ↔ right.Holds holds)
    (connective : Connective) :
    connective.apply x y = true ↔ (join connective left right).Holds holds := by
  cases connective with
  | and => rw [Connective.apply, Bool.and_eq_true, hleft, hright, Holds]
  | or => rw [Connective.apply, Bool.or_eq_true, hleft, hright, Holds]

/-! ## Evaluation -/

/-- The fields of a formula from left to right. -/
def Formula.fields (formula : Formula) : List String :=
  formula.conditions.map (·.field)

theorem Formula.fields_join (connective : Connective) (left right : Formula) :
    (join connective left right).fields = left.fields ++ right.fields :=
  List.map_append

/-- The record has no value in the field. -/
def Record.lacks (record : Record) (field : String) : Bool :=
  (record.get? field).isNone

namespace Formula

variable {record : Record}

/-- What an evaluation gives: the fault of the first missing field, else the truth value. -/
def Judged (record : Record) (formula : Formula) (outcome : Except Fault Bool) : Prop :=
  match formula.fields.find? record.lacks with
  | some field => outcome = .error (.missingField field)
  | none => ∃ verdict, outcome = .ok verdict ∧ (verdict = true ↔ formula.Holds record.Meets)

theorem judged_test (condition : Condition) :
    (test condition).Judged record (condition.eval record) := by
  have hfields : (test condition).fields = [condition.field] := rfl
  rw [Judged, hfields, Condition.eval]
  cases hvalue : record.get? condition.field with
  | none => simp [Record.lacks, hvalue]
  | some value => simp [Record.lacks, hvalue, Holds, Record.Meets]

/-- Both sides of a join are judged, and the fields of the left side come first. -/
theorem Judged.join {left right : Formula} {leftOutcome rightOutcome : Except Fault Bool}
    (hleft : left.Judged record leftOutcome) (hright : right.Judged record rightOutcome)
    (connective : Connective) :
    (join connective left right).Judged record (do
      let x ← leftOutcome
      let y ← rightOutcome
      .ok (connective.apply x y)) := by
  rw [Judged] at hleft hright ⊢
  rw [fields_join, List.find?_append]
  cases hmissing : left.fields.find? record.lacks with
  | some field =>
    rw [hmissing] at hleft
    obtain rfl := hleft
    rfl
  | none =>
    rw [hmissing] at hleft
    obtain ⟨x, rfl, hx⟩ := hleft
    cases hmissing' : right.fields.find? record.lacks with
    | some field =>
      rw [hmissing'] at hright
      obtain rfl := hright
      rfl
    | none =>
      rw [hmissing'] at hright
      obtain ⟨y, rfl, hy⟩ := hright
      exact ⟨connective.apply x y, rfl, holds_join_iff hx hy connective⟩

theorem judged_eval (record : Record) (formula : Formula) :
    formula.Judged record (formula.eval record) := by
  induction formula with
  | test condition => exact judged_test condition
  | join connective left right ihLeft ihRight => exact ihLeft.join ihRight connective

/-- Nothing but a missing field keeps a formula from being evaluated. -/
theorem exists_missingField_of_eval {formula : Formula} {fault : Fault}
    (h : formula.eval record = .error fault) : ∃ field, fault = .missingField field := by
  have hjudged := formula.judged_eval record
  rw [h, Judged] at hjudged
  cases hmissing : formula.fields.find? record.lacks with
  | some field =>
    rw [hmissing] at hjudged
    exact ⟨field, Except.error.inj hjudged⟩
  | none =>
    rw [hmissing] at hjudged
    obtain ⟨verdict, hverdict, -⟩ := hjudged
    simp at hverdict

/-- Only the fields of the formula matter. -/
theorem eval_congr {formula : Formula} {record' : Record}
    (h : ∀ field ∈ formula.fields, record.get? field = record'.get? field) :
    formula.eval record = formula.eval record' := by
  induction formula with
  | test condition =>
    have hfield : record.get? condition.field = record'.get? condition.field :=
      h condition.field List.mem_cons_self
    rw [eval, eval, Condition.eval, Condition.eval, hfield]
  | join connective left right ihLeft ihRight =>
    rw [fields_join] at h
    obtain ⟨hleft, hright⟩ := List.forall_mem_append.mp h
    rw [eval, eval, ihLeft hleft, ihRight hright]

end Formula

/-- An evaluation fails iff the record lacks a field of the formula, and reports the first such
field from left to right, whatever the other conditions decide; otherwise it tells whether the
formula is true of the conditions that the record meets. Records with the same values in the fields
of the formula are judged alike. -/
theorem evaluation_reads_every_field (formula : Formula) :
    (∀ record : Record,
      match formula.fields.find? record.lacks with
      | some field => formula.eval record = .error (.missingField field)
      | none => ∃ verdict, formula.eval record = .ok verdict ∧
          (verdict = true ↔ formula.Holds record.Meets)) ∧
    ∀ record record' : Record,
      (∀ field ∈ formula.fields, record.get? field = record'.get? field) →
        formula.eval record = formula.eval record' :=
  ⟨fun record => formula.judged_eval record, fun _ _ h => Formula.eval_congr h⟩

/-- A true side does not hide the missing field of the other, and fields that the formula does not
have do not count. -/
theorem missing_field_behind_true_condition :
    let formula := Formula.join .or (.test ⟨"name", .eq, .text "x"⟩) (.test ⟨"age", .gt, .text "y"⟩)
    let record := Record.ofList [("name", .text "x")]
    let record' := Record.ofList [("active", .boolean true), ("name", .text "x")]
    (∀ field ∈ formula.fields, record.get? field = record'.get? field) ∧
      formula.eval record = .error (.missingField "age") ∧
      formula.eval record' = .error (.missingField "age") := by
  intro formula record record'
  have hfields : ∀ field ∈ formula.fields, record.get? field = record'.get? field := by
    intro field hfield
    simp only [formula, Formula.fields, Formula.conditions, List.cons_append, List.nil_append,
      List.map_cons, List.map_nil, List.mem_cons, List.not_mem_nil, or_false] at hfield
    rcases hfield with rfl | rfl
    · decide
    · decide
  obtain ⟨hjudged, hcongr⟩ := evaluation_reads_every_field formula
  have hmissing : formula.fields.find? record.lacks = some "age" := by decide
  have hverdict : formula.eval record = .error (.missingField "age") := by
    simpa only [hmissing] using hjudged record
  exact ⟨hfields, hverdict, (hcongr record record' hfields).symm.trans hverdict⟩

end Criteria
