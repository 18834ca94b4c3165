import Criteria.Proofs.LeftJoins
import Criteria.Proofs.Verdicts

/-!
# What a combination of rules means

A record satisfies rules combined by AND iff it satisfies every one of them, and rules combined by
OR iff it satisfies one. How the rules themselves join their conditions does not matter, as each
keeps a formula of its own inside the combination; so the verdict does not depend on the order of
the rules either. All of them are evaluated, the first one first, and the fault of the first
that cannot be evaluated is that of the combination (`Rule.eval_of_combine`).
-/

namespace Criteria

open Outcome

/-! ## Verdicts joined by a connective -/

namespace Connective

/-- All of the values are so, or one of them is. -/
def HoldsOf {α : Type} (connective : Connective) (p : α → Prop) (values : List α) : Prop :=
  match connective with
  | .and => ∀ value ∈ values, p value
  | .or => ∃ value ∈ values, p value

/-- What a connective makes of truth values in a row. -/
def ofVerdicts : Connective → List Bool → Bool
  | .and, verdicts => verdicts.all id
  | .or, verdicts => verdicts.any id

theorem ofVerdicts_singleton (connective : Connective) (verdict : Bool) :
    connective.ofVerdicts [verdict] = verdict := by
  cases connective with
  | and => exact Bool.and_true verdict
  | or => exact Bool.or_false verdict

/-- The first two verdicts can be joined before the others. -/
theorem ofVerdicts_cons_cons (connective : Connective) (x y : Bool) (rest : List Bool) :
    connective.ofVerdicts (x :: y :: rest) =
      connective.ofVerdicts (connective.apply x y :: rest) := by
  cases connective with
  | and => exact (Bool.and_assoc x y _).symm
  | or => exact (Bool.or_assoc x y _).symm

theorem ofVerdicts_eq_true_iff (connective : Connective) (verdicts : List Bool) :
    connective.ofVerdicts verdicts = true ↔ connective.HoldsOf (· = true) verdicts := by
  cases connective with
  | and => exact List.all_eq_true
  | or => exact List.any_eq_true

/-- Values in another order are all so, or one of them is, as before. -/
theorem HoldsOf.perm {α : Type} {connective : Connective} {p : α → Prop} {values values' : List α}
    (h : connective.HoldsOf p values) (hperm : values.Perm values') :
    connective.HoldsOf p values' := by
  cases connective with
  | and =>
    intro value hmem
    exact h value (hperm.mem_iff.mpr hmem)
  | or =>
    obtain ⟨value, hmem, hvalue⟩ := h
    exact ⟨value, hperm.mem_iff.mp hmem, hvalue⟩

end Connective

/-- Verdicts are all true, or one of them is, as what they are found of is. -/
theorem Connective.holdsOf_verdicts_iff {ε α : Type} (connective : Connective)
    {f : α → Except ε Bool} {values : List α} {verdicts : List Bool}
    (h : values.mapM f = .ok verdicts) :
    connective.HoldsOf (· = true) verdicts ↔
      connective.HoldsOf (fun value => f value = .ok true) values := by
  cases connective with
  | and =>
    constructor
    · intro hall value hmem
      obtain ⟨verdict, hverdict, hvalue⟩ := exists_mem_of_mapM_eq_ok h hmem
      rw [hvalue, hall verdict hverdict]
    · intro hall verdict hmem
      obtain ⟨value, hvalue, hverdict⟩ := exists_of_mapM_eq_ok h hmem
      exact Except.ok.inj (hverdict.symm.trans (hall value hvalue))
  | or =>
    constructor
    · rintro ⟨verdict, hmem, rfl⟩
      exact exists_of_mapM_eq_ok h hmem
    · rintro ⟨value, hmem, htrue⟩
      obtain ⟨verdict, hverdict, hvalue⟩ := exists_mem_of_mapM_eq_ok h hmem
      exact ⟨verdict, hverdict, Except.ok.inj (hvalue.symm.trans htrue)⟩

/-! ## Formulas joined from the left -/

variable {policy : Policy} {connective : Connective} {record : Record}

/-- The formulas are all evaluated, and the connective is applied to their verdicts. -/
theorem Formula.eval_foldl_join (connective : Connective) (first : Formula) (rest : List Formula) :
    (rest.foldl (.join connective) first).eval record =
      ((first :: rest).mapM (eval record)).map connective.ofVerdicts := by
  induction rest generalizing first with
  | nil =>
    rw [List.foldl_nil, List.mapM_cons, List.mapM_nil]
    cases first.eval record with
    | error fault => rfl
    | ok x => exact congrArg Except.ok (connective.ofVerdicts_singleton x).symm
  | cons next rest ih =>
    rw [List.foldl_cons, ih, List.mapM_cons, List.mapM_cons, List.mapM_cons, eval]
    cases first.eval record with
    | error fault => rfl
    | ok x =>
      cases next.eval record with
      | error fault => rfl
      | ok y =>
        cases rest.mapM (eval record) with
        | error fault => rfl
        | ok verdicts =>
          exact congrArg Except.ok (connective.ofVerdicts_cons_cons x y verdicts).symm

/-! ## Combined rules -/

namespace Rule

/-- What a record makes of a rule by itself. -/
def eval (policy : Policy) (record : Record) (rule : String) : Except Fault Bool := do
  let formula ← compile policy rule
  formula.eval record

/-- Rules that compile are evaluated as their formulas are. -/
theorem mapM_eval {rules : List String} {formulas : List Formula}
    (h : rules.mapM (compile policy) = .ok formulas) :
    rules.mapM (eval policy record) = formulas.mapM (Formula.eval record) := by
  induction rules generalizing formulas with
  | nil =>
    obtain rfl := Except.ok.inj h
    rfl
  | cons rule rules ih =>
    rw [List.mapM_cons] at h
    obtain ⟨first, hfirst, h⟩ := bind_eq_ok_iff.mp h
    obtain ⟨rest, hrest, h⟩ := bind_eq_ok_iff.mp h
    obtain rfl := Except.ok.inj h
    have heval : eval policy record rule = first.eval record := by
      rw [eval, hfirst, ok_bind]
    rw [List.mapM_cons, List.mapM_cons, heval, ih hrest]

/-- A combination is evaluated by evaluating the rules. -/
theorem eval_of_combine {rules : List String} {formula : Formula}
    (h : combine policy connective rules = .ok formula) (record : Record) :
    formula.eval record = (rules.mapM (eval policy record)).map connective.ofVerdicts := by
  obtain ⟨formulas, hmap, hcombine⟩ := exists_formulas_of_combine h
  rw [mapM_eval hmap]
  cases formulas with
  | nil => simp [Formula.combine] at hcombine
  | cons first rest => rw [Formula.eq_foldl_of_combine hcombine, Formula.eval_foldl_join]

/-- A combination is evaluated iff every rule is, and then its verdict is that all of the rules are
satisfied, or one of them. Otherwise its fault is that of the first rule that is not evaluated. -/
theorem cases_of_combine {rules : List String} {formula : Formula}
    (h : combine policy connective rules = .ok formula) (record : Record) :
    (∃ verdict, formula.eval record = .ok verdict ∧
      (∀ rule ∈ rules, ∃ own, eval policy record rule = .ok own) ∧
      (verdict = true ↔
        connective.HoldsOf (fun rule => eval policy record rule = .ok true) rules)) ∨
    ∃ before rule after field, rules = before ++ rule :: after ∧
      (∀ earlier ∈ before, ∃ own, eval policy record earlier = .ok own) ∧
      eval policy record rule = .error (.missingField field) ∧
      formula.eval record = .error (.missingField field) := by
  have hformula := eval_of_combine h record
  rcases mapM_cases (eval policy record) rules with
    ⟨verdicts, hverdicts⟩ | ⟨before, rule, after, fault, hsplit, hbefore, hrule, hfault⟩
  · rw [hverdicts] at hformula
    refine .inl ⟨connective.ofVerdicts verdicts, hformula, fun rule hmem => ?_, ?_⟩
    · obtain ⟨own, -, hown⟩ := exists_mem_of_mapM_eq_ok hverdicts hmem
      exact ⟨own, hown⟩
    · rw [connective.ofVerdicts_eq_true_iff, connective.holdsOf_verdicts_iff hverdicts]
  · rw [hfault] at hformula
    obtain ⟨field, rfl⟩ := Formula.exists_missingField_of_eval hformula
    exact .inr ⟨before, rule, after, field, hsplit, hbefore, hrule, hformula⟩

/-- The same rules in another order are combined to a formula with the same verdicts. -/
theorem eval_of_combine_perm {rules rules' : List String} {formula formula' : Formula}
    (h : combine policy connective rules = .ok formula)
    (h' : combine policy connective rules' = .ok formula') (hperm : rules.Perm rules')
    {verdict : Bool} (hverdict : formula.eval record = .ok verdict) :
    formula'.eval record = .ok verdict := by
  rcases cases_of_combine h record with
    ⟨found, hfound, hall, htrue⟩ | ⟨_, _, _, _, -, -, -, hfault⟩
  · rw [← hverdict, hfound]
    rcases cases_of_combine h' record with
      ⟨found', hfound', -, htrue'⟩ | ⟨before, rule, after, field, rfl, -, hrule, -⟩
    · have hequal : found' = found := by
        rw [Bool.eq_iff_iff, htrue, htrue']
        exact ⟨fun hholds => hholds.perm hperm.symm, fun hholds => hholds.perm hperm⟩
      rw [hfound', hequal]
    · obtain ⟨own, hrule'⟩ := hall rule (hperm.mem_iff.mpr (by simp))
      rw [hrule] at hrule'
      simp at hrule'
  · rw [hfault] at hverdict
    simp at hverdict

end Rule

/-- What a combination of rules means. Every rule compiles by itself. If a record gives a verdict on
each rule, it gives one on the combination: that all of the rules are satisfied, or that one of them
is, as the connective says. Otherwise the fault is that of the first rule without a verdict, a
missing field. In another order the same rules have the same verdict. -/
theorem combination_is_all_or_any (policy : Policy) (connective : Connective) (rules : List String)
    (formula : Formula) (h : Rule.combine policy connective rules = .ok formula) :
    (∀ rule ∈ rules, ∃ own, Rule.compile policy rule = .ok own) ∧
    (∀ record : Record,
      (∃ verdict, formula.eval record = .ok verdict ∧
        (∀ rule ∈ rules, ∃ own, Rule.eval policy record rule = .ok own) ∧
        (verdict = true ↔
          connective.HoldsOf (fun rule => Rule.eval policy record rule = .ok true) rules)) ∨
      ∃ before rule after field, rules = before ++ rule :: after ∧
        (∀ earlier ∈ before, ∃ own, Rule.eval policy record earlier = .ok own) ∧
        Rule.eval policy record rule = .error (.missingField field) ∧
        formula.eval record = .error (.missingField field)) ∧
    ∀ rules' formula', rules.Perm rules' → Rule.combine policy connective rules' = .ok formula' →
      ∀ (record : Record) (verdict : Bool),
        formula.eval record = .ok verdict ↔ formula'.eval record = .ok verdict := by
  refine ⟨?_, Rule.cases_of_combine h, ?_⟩
  · intro rule hmem
    obtain ⟨formulas, hmap, -⟩ := Rule.exists_formulas_of_combine h
    obtain ⟨own, -, hown⟩ := exists_mem_of_mapM_eq_ok hmap hmem
    exact ⟨own, hown⟩
  · intro rules' formula' hperm h' record verdict
    exact ⟨Rule.eval_of_combine_perm h h' hperm, Rule.eval_of_combine_perm h' h hperm.symm⟩

/-- The OR inside the first rule stays a formula of its own: the record meets its left side, and not
the second rule. Where the first rule is not satisfied, a missing field of the second is not
hidden. -/
theorem combination_of_rule_with_or :
    let formula := Formula.join .and
      (.join .or (.test ⟨"a", .eq, .text "x"⟩) (.test ⟨"b", .eq, .text "y"⟩))
      (.test ⟨"c", .eq, .text "z"⟩)
    let swapped := Formula.join .and (.test ⟨"c", .eq, .text "z"⟩)
      (.join .or (.test ⟨"a", .eq, .text "x"⟩) (.test ⟨"b", .eq, .text "y"⟩))
    let record := Record.ofList [("a", .text "x"), ("b", .text ""), ("c", .text "")]
    let shorter := Record.ofList [("a", .text ""), ("b", .text "")]
    Rule.combine {} .and ["a = 'x' OR b = 'y'", "c = 'z'"] = .ok formula ∧
      Rule.combine {} .and ["c = 'z'", "a = 'x' OR b = 'y'"] = .ok swapped ∧
      formula.eval record = .ok false ∧ swapped.eval record = .ok false ∧
      formula.eval shorter = .error (.missingField "c") := by
  intro formula swapped record shorter
  let rules := ["a = 'x' OR b = 'y'", "c = 'z'"]
  have hcombine : Rule.combine {} .and rules = .ok formula := by decide +kernel
  have hswapped : Rule.combine {} .and rules.reverse = .ok swapped := by decide +kernel
  obtain ⟨-, hcases, hperm⟩ := combination_is_all_or_any {} .and rules formula hcombine
  have hverdict : formula.eval record = .ok false := by decide +kernel
  have hverdict' : swapped.eval record = .ok false :=
    (hperm rules.reverse swapped (List.reverse_perm rules).symm hswapped record false).mp hverdict
  have hfirst : Rule.eval {} shorter "a = 'x' OR b = 'y'" = .ok false := by decide +kernel
  have hsecond : Rule.eval {} shorter "c = 'z'" = .error (.missingField "c") := by decide +kernel
  have hfault : formula.eval shorter = .error (.missingField "c") := by
    rcases hcases shorter with
      ⟨_, -, hall, -⟩ | ⟨before, rule, after, field, hsplit, -, hrule, hfault⟩
    · obtain ⟨own, hown⟩ := hall "c = 'z'" (by simp [rules])
      rw [hsecond] at hown
      simp at hown
    · have hmem : rule ∈ rules := by simp [hsplit]
      rcases List.mem_pair.mp hmem with rfl | rfl
      · rw [hfirst] at hrule
        simp at hrule
      · rw [hfault, ← hrule, hsecond]
  exact ⟨hcombine, hswapped, hverdict, hverdict', hfault⟩

end Criteria
