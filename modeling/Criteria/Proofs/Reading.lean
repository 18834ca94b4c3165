import Criteria.Rule
import Criteria.Proofs.Outcome

/-!
# Runs of the reader

`readLevel` takes one lexeme at a time. This file says what it does with each, and what follows for
whole runs from what the operations on a level do. A run that succeeds is one in which every
operation does (`Run`), so what the operations preserve is proved of it by induction. A run under one
policy refines a run under another if the operations do (`readLevel_refines`), and it ends with no
fault but those of the operations (`readLevel_failsOnly`).
-/

namespace Criteria

open Outcome

/-! ## One lexeme at a time -/

section

variable (policy : Policy) (depth : Nat) (around : List Level) (level : Level)
  (rest : List Lexeme)

theorem readLevel_nil :
    readLevel policy depth around level [] =
      if 0 < depth + around.length then .error .unexpectedEnd
      else level.close.map fun group => (group.1, group.2, []) := by
  rw [readLevel]
  split
  · rfl
  · cases level.close <;> rfl

/-- Without lexemes left, the level of the rule itself is closed. -/
theorem readLevel_outermost_nil :
    readLevel policy 0 [] level [] = level.close.map fun group => (group.1, group.2, []) := by
  rw [readLevel_nil]
  exact if_neg (Nat.lt_irrefl 0)

theorem readLevel_opening :
    readLevel policy depth around level (.opening :: rest) =
      if policy.maxNesting ≤ depth + around.length then .error (.tooDeep policy.maxNesting)
      else readLevel policy depth (level :: around) .empty rest := by
  rw [readLevel]

theorem readLevel_last_closing :
    readLevel policy depth [] level (.closing :: rest) =
      if depth = 0 ∧ policy.isStrict then .error (.unexpectedText Lexeme.closing.text)
      else level.close.map fun group => (group.1, group.2, rest) := by
  rw [readLevel]
  split
  · rfl
  · cases level.close <;> rfl

theorem readLevel_closing (outer : Level) :
    readLevel policy depth (outer :: around) level (.closing :: rest) =
      level.close >>= fun group => outer.addGroup policy group >>= fun outer =>
        readLevel policy depth around outer rest := by
  rw [readLevel]

theorem readLevel_connective (connective : Connective) :
    readLevel policy depth around level (.connective connective :: rest) =
      level.addConnective connective >>= fun level => readLevel policy depth around level rest := by
  rw [readLevel]

theorem readLevel_condition (text : String) :
    readLevel policy depth around level (.condition text :: rest) =
      level.addCondition policy text >>= fun level => readLevel policy depth around level rest := by
  rw [readLevel]

end

/-! ## Operations that succeed -/

section

variable {policy : Policy} {connective : Connective} {level level' : Level}

/-- A join is made if its height is within the limit, and has this height. -/
theorem Formula.eq_of_joinWithin {left right joined : Formula × Nat}
    (h : joinWithin policy connective left right = .ok joined) :
    1 + max left.2 right.2 ≤ policy.maxHeight ∧
      joined = (.join connective left.1 right.1, 1 + max left.2 right.2) := by
  rw [joinWithin] at h
  split at h
  · simp at h
  · next hheight => exact ⟨Nat.le_of_not_lt hheight, (Except.ok.inj h).symm⟩

/-- Rules that are combined compile, and the combination is that of their formulas. -/
theorem Rule.exists_formulas_of_combine {rules : List String} {formula : Formula}
    (h : combine policy connective rules = .ok formula) :
    ∃ formulas, rules.mapM (compile policy) = .ok formulas ∧
      Formula.combine policy connective formulas = .ok formula := by
  rw [combine] at h
  split at h
  · simp at h
  · exact bind_eq_ok_iff.mp h

namespace Level

theorem eq_of_close {group : Formula × Nat} (h : level.close = .ok group) :
    level = complete group.1 group.2 := by
  cases level with
  | empty => simp [close] at h
  | waiting connective left leftHeight => simp [close] at h
  | complete formula height =>
    obtain rfl := Except.ok.inj h
    rfl

theorem exists_of_addConnective (h : level.addConnective connective = .ok level') :
    ∃ formula height,
      level = complete formula height ∧ level' = waiting connective formula height := by
  cases level with
  | empty => simp [addConnective] at h
  | waiting connective left leftHeight => simp [addConnective] at h
  | complete formula height => exact ⟨formula, height, rfl, (Except.ok.inj h).symm⟩

theorem eq_of_ofJoin {left right : Formula × Nat}
    (h : ofJoin policy connective left right = .ok level) :
    level = complete (.join connective left.1 right.1) (1 + max left.2 right.2) := by
  obtain ⟨joined, hjoin, rfl⟩ := map_eq_ok_iff.mp h
  rw [(Formula.eq_of_joinWithin hjoin).2]

/-- A group comes first, becomes the right side of a join, is dropped, or takes the place of a right
side. -/
theorem cases_of_addGroup {group : Formula × Nat} (h : level.addGroup policy group = .ok level') :
    (level = empty ∧ level' = complete group.1 group.2) ∨
    (∃ connective left leftHeight, level = waiting connective left leftHeight ∧
      ofJoin policy connective (left, leftHeight) group = .ok level') ∨
    level' = level ∨
    ∃ connective left right height, level = complete (.join connective left right) height ∧
      ofJoin policy connective (left, left.height) group = .ok level' := by
  cases level with
  | empty => exact .inl ⟨rfl, (Except.ok.inj h).symm⟩
  | waiting connective left leftHeight => exact .inr (.inl ⟨connective, left, leftHeight, rfl, h⟩)
  | complete formula height =>
    simp only [addGroup] at h
    split at h
    · simp at h
    · cases formula with
      | test condition => exact .inr (.inr (.inl (Except.ok.inj h).symm))
      | join connective left right =>
        exact .inr (.inr (.inr ⟨connective, left, right, height, rfl, h⟩))

/-- A condition is dropped, or added as a group that holds nothing else. -/
theorem cases_of_addCondition {text : String} (h : level.addCondition policy text = .ok level') :
    ∃ condition, Condition.ofText text = .ok condition ∧
      (level' = level ∨ level.addGroup policy (.test condition, 1) = .ok level') := by
  obtain ⟨condition, htext, hadd⟩ := bind_eq_ok_iff.mp h
  refine ⟨condition, htext, ?_⟩
  cases level with
  | empty => exact .inr hadd
  | waiting connective left leftHeight => exact .inr hadd
  | complete formula height =>
    simp only at hadd
    split at hadd
    · simp at hadd
    · exact .inl (Except.ok.inj hadd).symm

end Level

end

/-! ## Runs that succeed -/

/-- A run of the reader that succeeds, by what it does with the first lexeme. -/
inductive Run (policy : Policy) (depth : Nat) :
    List Level → Level → List Lexeme → Formula × Nat × List Lexeme → Prop
  | atEnd {around : List Level} {level : Level} {group : Formula × Nat} :
      ¬ 0 < depth + around.length → level.close = .ok group →
      Run policy depth around level [] (group.1, group.2, [])
  | opening {around : List Level} {level : Level} {rest : List Lexeme}
      {result : Formula × Nat × List Lexeme} :
      ¬ policy.maxNesting ≤ depth + around.length →
      Run policy depth (level :: around) .empty rest result →
      Run policy depth around level (.opening :: rest) result
  | lastClosing {level : Level} {rest : List Lexeme} {group : Formula × Nat} :
      ¬ (depth = 0 ∧ policy.isStrict) → level.close = .ok group →
      Run policy depth [] level (.closing :: rest) (group.1, group.2, rest)
  | closing {outer outer' : Level} {around : List Level} {level : Level} {rest : List Lexeme}
      {group : Formula × Nat} {result : Formula × Nat × List Lexeme} :
      level.close = .ok group → outer.addGroup policy group = .ok outer' →
      Run policy depth around outer' rest result →
      Run policy depth (outer :: around) level (.closing :: rest) result
  | connective {connective : Connective} {around : List Level} {level level' : Level}
      {rest : List Lexeme} {result : Formula × Nat × List Lexeme} :
      level.addConnective connective = .ok level' → Run policy depth around level' rest result →
      Run policy depth around level (.connective connective :: rest) result
  | condition {text : String} {around : List Level} {level level' : Level} {rest : List Lexeme}
      {result : Formula × Nat × List Lexeme} :
      level.addCondition policy text = .ok level' → Run policy depth around level' rest result →
      Run policy depth around level (.condition text :: rest) result

section

variable {policy : Policy} {depth : Nat} {around : List Level} {level : Level}
  {lexemes : List Lexeme} {result : Formula × Nat × List Lexeme}

theorem Run.readLevel_eq (h : Run policy depth around level lexemes result) :
    readLevel policy depth around level lexemes = .ok result := by
  induction h with
  | atEnd hdepth hclose =>
    rw [readLevel_nil, if_neg hdepth, hclose]
    rfl
  | opening hdepth _ ih => rw [readLevel_opening, if_neg hdepth, ih]
  | lastClosing hstrict hclose =>
    rw [readLevel_last_closing, if_neg hstrict, hclose]
    rfl
  | closing hclose hadd _ ih => rw [readLevel_closing, hclose, ok_bind, hadd, ok_bind, ih]
  | connective hadd _ ih => rw [readLevel_connective, hadd, ok_bind, ih]
  | condition hadd _ ih => rw [readLevel_condition, hadd, ok_bind, ih]

theorem Run.of_readLevel (h : readLevel policy depth around level lexemes = .ok result) :
    Run policy depth around level lexemes result := by
  induction lexemes generalizing around level with
  | nil =>
    rw [readLevel_nil] at h
    split at h
    · simp at h
    · next hdepth =>
      obtain ⟨group, hclose, rfl⟩ := map_eq_ok_iff.mp h
      exact .atEnd hdepth hclose
  | cons lexeme rest ih =>
    cases lexeme with
    | opening =>
      rw [readLevel_opening] at h
      split at h
      · simp at h
      · next hdepth => exact .opening hdepth (ih h)
    | closing =>
      cases around with
      | nil =>
        rw [readLevel_last_closing] at h
        split at h
        · simp at h
        · next hstrict =>
          obtain ⟨group, hclose, rfl⟩ := map_eq_ok_iff.mp h
          exact .lastClosing hstrict hclose
      | cons outer around =>
        rw [readLevel_closing] at h
        obtain ⟨group, hclose, hbehind⟩ := bind_eq_ok_iff.mp h
        obtain ⟨outer', hadd, hrest⟩ := bind_eq_ok_iff.mp hbehind
        exact .closing hclose hadd (ih hrest)
    | connective connective =>
      rw [readLevel_connective] at h
      obtain ⟨level', hadd, hrest⟩ := bind_eq_ok_iff.mp h
      exact .connective hadd (ih hrest)
    | condition text =>
      rw [readLevel_condition] at h
      obtain ⟨level', hadd, hrest⟩ := bind_eq_ok_iff.mp h
      exact .condition hadd (ih hrest)

end

/-! ## Two runs in lock step -/

/-- A run refines the run under another policy if every operation on a level does, and if the first
policy refuses where only it stops at a parenthesis. -/
theorem readLevel_refines {refused : Fault → Prop} (policy policy' : Policy) (depth : Nat)
    (hopening : policy.maxNesting = policy'.maxNesting ∨
      policy.maxNesting ≤ policy'.maxNesting ∧ refused (.tooDeep policy.maxNesting))
    (hclosing : policy.isStrict = policy'.isStrict ∨
      policy.isStrict = true ∧ refused (.unexpectedText Lexeme.closing.text))
    (hgroup : ∀ (level : Level) (group : Formula × Nat),
      Refines refused (level.addGroup policy group) (level.addGroup policy' group))
    (hcondition : ∀ (level : Level) (text : String),
      Refines refused (level.addCondition policy text) (level.addCondition policy' text)) :
    ∀ (lexemes : List Lexeme) (around : List Level) (level : Level),
      Refines refused (readLevel policy depth around level lexemes)
        (readLevel policy' depth around level lexemes) := by
  intro lexemes
  induction lexemes with
  | nil =>
    intro around level
    rw [readLevel_nil, readLevel_nil]
    exact .refl _
  | cons lexeme rest ih =>
    intro around level
    cases lexeme with
    | opening =>
      rw [readLevel_opening, readLevel_opening]
      -- both policies refuse the parenthesis, or the first one alone does
      rcases hopening with heq | ⟨hle, hrefused⟩
      · rw [heq]
        split
        · exact .refl _
        · exact ih (level :: around) .empty
      · split
        · exact .of_refused hrefused _
        · next hdeep =>
          rw [if_neg (by omega)]
          exact ih (level :: around) .empty
    | closing =>
      cases around with
      | nil =>
        rw [readLevel_last_closing, readLevel_last_closing]
        rcases hclosing with heq | ⟨hstrict, hrefused⟩
        · rw [heq]
          exact .refl _
        · by_cases hdepth : depth = 0
          · rw [if_pos ⟨hdepth, hstrict⟩]
            exact .of_refused hrefused _
          · rw [if_neg (by simp [hdepth]), if_neg (by simp [hdepth])]
            exact .refl _
      | cons outer around =>
        rw [readLevel_closing, readLevel_closing]
        exact (Refines.refl level.close).bind fun group =>
          (hgroup outer group).bind fun level => ih around level
    | connective connective =>
      rw [readLevel_connective, readLevel_connective]
      exact (Refines.refl _).bind fun level => ih around level
    | condition text =>
      rw [readLevel_condition, readLevel_condition]
      exact (hcondition level text).bind fun level => ih around level

/-! ## What a run can end with -/

/-- The faults with which a rule can be refused: it is empty, or its lexemes break off or stand in
the wrong place, or it goes beyond a limit. Text that cannot be used is refused strictly only. -/
def Policy.RefusesRule (policy : Policy) : Fault → Prop
  | .emptyRule | .emptyExpression | .unexpectedEnd | .danglingConnective _ => True
  | .tooDeep limit => limit = policy.maxNesting ∨ limit = policy.maxHeight
  | .unexpectedText _ => policy.mode = .strict
  | .invalidCondition _ | .noRules | .invalidInput _ | .missingField _ | .unknownOperator _ => False

/-- The faults with which lexemes can be refused: those of rules, and that one of them is no
condition though it is said to be one. -/
def Policy.RefusesLexemes (policy : Policy) (lexemes : List Lexeme) (fault : Fault) : Prop :=
  policy.RefusesRule fault ∨
    ∃ text, .condition text ∈ lexemes ∧ fault = .invalidCondition text ∧
      ∀ condition, Condition.ofText text ≠ .ok condition

theorem Policy.isStrict_iff {policy : Policy} : policy.isStrict = true ↔ policy.mode = .strict := by
  simp [Policy.isStrict]

theorem Formula.joinWithin_failsOnly (policy : Policy) (connective : Connective)
    (left right : Formula × Nat) :
    FailsOnly policy.RefusesRule (joinWithin policy connective left right) := by
  rw [joinWithin]
  split
  · exact failsOnly_error (.inr rfl)
  · exact failsOnly_ok _

namespace Level

variable (policy : Policy)

theorem close_failsOnly (level : Level) : FailsOnly policy.RefusesRule level.close := by
  cases level with
  | empty => exact failsOnly_error trivial
  | waiting connective left leftHeight => exact failsOnly_error trivial
  | complete formula height => exact failsOnly_ok _

theorem addConnective_failsOnly (level : Level) (connective : Connective) :
    FailsOnly policy.RefusesRule (level.addConnective connective) := by
  cases level with
  | empty => exact failsOnly_error trivial
  | waiting connective left leftHeight => exact failsOnly_error trivial
  | complete formula height => exact failsOnly_ok _

theorem ofJoin_failsOnly (connective : Connective) (left right : Formula × Nat) :
    FailsOnly policy.RefusesRule (ofJoin policy connective left right) :=
  (Formula.joinWithin_failsOnly policy connective left right).map _

theorem addGroup_failsOnly (level : Level) (group : Formula × Nat) :
    FailsOnly policy.RefusesRule (level.addGroup policy group) := by
  cases level with
  | empty => exact failsOnly_ok _
  | waiting connective left leftHeight => exact ofJoin_failsOnly policy _ _ _
  | complete formula height =>
    simp only [addGroup]
    split
    · next hstrict => exact failsOnly_error (Policy.isStrict_iff.mp hstrict)
    · cases formula with
      | test condition => exact failsOnly_ok _
      | join connective left right => exact ofJoin_failsOnly policy _ _ _

theorem addCondition_failsOnly (level : Level) {lexemes : List Lexeme} {text : String}
    (hmem : .condition text ∈ lexemes) :
    FailsOnly (policy.RefusesLexemes lexemes) (level.addCondition policy text) := by
  refine FailsOnly.bind ?_ fun condition _ => FailsOnly.mono ?_ fun _ => Or.inl
  · intro fault hfault
    refine .inr ⟨text, hmem, Condition.eq_invalidCondition_of_ofText hfault, ?_⟩
    simp [hfault]
  · cases level with
    | empty => exact failsOnly_ok _
    | waiting connective left leftHeight => exact ofJoin_failsOnly policy _ _ _
    | complete formula height =>
      simp only
      split
      · next hstrict => exact failsOnly_error (Policy.isStrict_iff.mp hstrict)
      · exact failsOnly_ok _

end Level

/-- What the reading of some of the lexemes ends with is a fault of the lexemes, if it is one. -/
theorem readLevel_failsOnly (policy : Policy) (depth : Nat) {lexemes : List Lexeme} :
    ∀ (rest : List Lexeme) (around : List Level) (level : Level), rest ⊆ lexemes →
      FailsOnly (policy.RefusesLexemes lexemes) (readLevel policy depth around level rest) := by
  intro rest
  induction rest with
  | nil =>
    intro around level _
    rw [readLevel_nil]
    split
    · exact failsOnly_error (.inl trivial)
    · exact ((Level.close_failsOnly policy level).mono fun _ => Or.inl).map _
  | cons lexeme rest ih =>
    intro around level hsub
    obtain ⟨hmem, hrest⟩ := List.cons_subset.mp hsub
    cases lexeme with
    | opening =>
      rw [readLevel_opening]
      split
      · exact failsOnly_error (.inl (.inl rfl))
      · exact ih (level :: around) .empty hrest
    | closing =>
      cases around with
      | nil =>
        rw [readLevel_last_closing]
        split
        · next hstray => exact failsOnly_error (.inl (Policy.isStrict_iff.mp hstray.2))
        · exact ((Level.close_failsOnly policy level).mono fun _ => Or.inl).map _
      | cons outer around =>
        rw [readLevel_closing]
        refine ((Level.close_failsOnly policy level).mono fun _ => Or.inl).bind fun group _ => ?_
        refine ((Level.addGroup_failsOnly policy outer group).mono fun _ => Or.inl).bind ?_
        exact fun level _ => ih around level hrest
    | connective connective =>
      rw [readLevel_connective]
      refine ((Level.addConnective_failsOnly policy level _).mono fun _ => Or.inl).bind ?_
      exact fun level _ => ih around level hrest
    | condition text =>
      rw [readLevel_condition]
      exact (Level.addCondition_failsOnly policy level hmem).bind fun level _ =>
        ih around level hrest

theorem Formula.ofLexemes_failsOnly (policy : Policy) (lexemes : List Lexeme) :
    FailsOnly (policy.RefusesLexemes lexemes) (ofLexemes policy lexemes) :=
  (readLevel_failsOnly policy 0 lexemes [] .empty (List.Subset.refl lexemes)).map _

/-! ## Heights -/

/-- A formula is within the limit on height if it is a condition alone or no higher than it. -/
def Policy.Fits (policy : Policy) (formula : Formula) : Prop :=
  formula.isTest = true ∨ formula.height ≤ policy.maxHeight

instance (policy : Policy) (formula : Formula) : Decidable (policy.Fits formula) :=
  inferInstanceAs (Decidable (_ ∨ _))

theorem Policy.fits_test (policy : Policy) (condition : Condition) :
    policy.Fits (.test condition) := .inl rfl

theorem Policy.fits_join_iff {policy : Policy} {connective : Connective} {left right : Formula} :
    policy.Fits (.join connective left right) ↔
      (Formula.join connective left right).height ≤ policy.maxHeight := by
  simp [Policy.Fits, Formula.isTest]

/-- Both sides of a join that fits do. -/
theorem Policy.Fits.sides {policy : Policy} {connective : Connective} {left right : Formula}
    (h : policy.Fits (.join connective left right)) : policy.Fits left ∧ policy.Fits right := by
  have hheight := Policy.fits_join_iff.mp h
  rw [Formula.height] at hheight
  exact ⟨.inr (by omega), .inr (by omega)⟩

theorem Policy.Fits.height_le {policy : Policy} {formula : Formula} (h : policy.Fits formula) :
    formula.height ≤ max 1 policy.maxHeight := by
  rcases h with htest | hheight
  · cases formula with
    | test condition => exact Nat.le_max_left _ _
    | join connective left right => simp [Formula.isTest] at htest
  · omega

/-- Two formulas given with their heights are joined iff the joined formula is within the limit. -/
theorem Formula.joinWithin_eq (policy : Policy) (connective : Connective) (left right : Formula) :
    joinWithin policy connective (left, left.height) (right, right.height) =
      if (join connective left right).height ≤ policy.maxHeight then
        .ok (join connective left right, (join connective left right).height)
      else .error (.tooDeep policy.maxHeight) := by
  unfold joinWithin
  by_cases hheight : (join connective left right).height ≤ policy.maxHeight
  · rw [if_pos hheight, if_neg (by simpa [height] using hheight)]
    rfl
  · rw [if_neg hheight, if_pos (by simpa [height] using hheight)]

/-- A join is made iff the joined formula fits, and is refused with the limit otherwise. -/
theorem Level.ofJoin_eq (policy : Policy) (connective : Connective) (left right : Formula) :
    ofJoin policy connective (left, left.height) (right, right.height) =
      if (Formula.join connective left right).height ≤ policy.maxHeight then
        .ok (complete (.join connective left right) (Formula.join connective left right).height)
      else .error (.tooDeep policy.maxHeight) := by
  rw [ofJoin, Formula.joinWithin_eq]
  split <;> rfl

end Criteria
