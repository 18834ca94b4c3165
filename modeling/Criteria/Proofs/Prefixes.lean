import Mathlib.Data.List.Induction
import Criteria.Proofs.Reading

/-!
# What the first lexemes decide

Some faults of a reading are found at a lexeme: a connective in the wrong place, a text that is no
condition or cannot be used, and what is beyond a limit. The other two are found where a level ends.
A fault that is found at a lexeme does not depend on what comes behind the lexeme, so it is the fault
of every longer list of lexemes too, and there is one lexeme that brings it about. A lenient reading
that succeeds is complete: it gives the same formula if a closing parenthesis comes next, whatever
comes behind that.
-/

namespace Criteria

open Outcome

/-- The fault is found at a lexeme, and not at the end of a level. -/
def Fault.IsAtLexeme : Fault → Prop
  | danglingConnective _ | invalidCondition _ | unexpectedText _ | tooDeep _ => True
  | emptyRule | unexpectedEnd | emptyExpression | noRules | invalidInput _ | missingField _
  | unknownOperator _ => False

variable {policy : Policy} {depth : Nat}

/-! ## Faults that stay -/

/-- A level that ends has no fault that is found at a lexeme. -/
theorem Level.close_failsOnly_atEnd (level : Level) :
    FailsOnly (fun fault => ¬ fault.IsAtLexeme) level.close := by
  cases level with
  | empty => exact failsOnly_error id
  | waiting connective left leftHeight => exact failsOnly_error id
  | complete formula height => exact failsOnly_ok _

/-- A fault that is found at a lexeme stays, whatever comes behind. -/
theorem readLevel_append_eq_error {fault : Fault} (hfault : fault.IsAtLexeme)
    (behind : List Lexeme) :
    ∀ (lexemes : List Lexeme) (around : List Level) (level : Level),
      readLevel policy depth around level lexemes = .error fault →
      readLevel policy depth around level (lexemes ++ behind) = .error fault := by
  intro lexemes
  induction lexemes with
  | nil =>
    intro around level h
    rw [readLevel_nil] at h
    split at h
    · obtain rfl := Except.error.inj h
      exact hfault.elim
    · exact absurd hfault (level.close_failsOnly_atEnd fault (map_eq_error_iff.mp h))
  | cons lexeme rest ih =>
    intro around level h
    rw [List.cons_append]
    cases lexeme with
    | opening =>
      rw [readLevel_opening] at h ⊢
      split
      · next hdeep => rwa [if_pos hdeep] at h
      · next hdeep =>
        rw [if_neg hdeep] at h
        exact ih (level :: around) .empty h
    | closing =>
      cases around with
      | nil =>
        rw [readLevel_last_closing] at h ⊢
        split
        · next hstray => rwa [if_pos hstray] at h
        · next hstray =>
          rw [if_neg hstray] at h
          exact map_eq_error_iff.mpr (map_eq_error_iff.mp h)
      | cons outer around =>
        rw [readLevel_closing] at h ⊢
        exact bind_eq_error_of_imp h fun group hgroup =>
          bind_eq_error_of_imp hgroup fun level hrest => ih around level hrest
    | connective connective =>
      rw [readLevel_connective] at h ⊢
      exact bind_eq_error_of_imp h fun level hrest => ih around level hrest
    | condition text =>
      rw [readLevel_condition] at h ⊢
      exact bind_eq_error_of_imp h fun level hrest => ih around level hrest

namespace Formula

variable {lexemes : List Lexeme} {fault : Fault}

theorem ofLexemes_append_eq_error (hfault : fault.IsAtLexeme)
    (h : ofLexemes policy lexemes = .error fault) (behind : List Lexeme) :
    ofLexemes policy (lexemes ++ behind) = .error fault :=
  map_eq_error_iff.mpr
    (readLevel_append_eq_error hfault behind lexemes [] .empty (map_eq_error_iff.mp h))

/-- The fault is brought about by one lexeme: with it the reading fails, and what stands before it
has no fault that is found at a lexeme. -/
theorem exists_lexeme_of_fault (hfault : fault.IsAtLexeme)
    (h : ofLexemes policy lexemes = .error fault) :
    ∃ before lexeme behind, lexemes = before ++ lexeme :: behind ∧
      ofLexemes policy (before ++ [lexeme]) = .error fault ∧
      FailsOnly (fun fault => ¬ fault.IsAtLexeme) (ofLexemes policy before) := by
  induction lexemes using List.reverseRecOn with
  | nil =>
    obtain rfl : Fault.emptyExpression = fault := Except.error.inj h
    exact hfault.elim
  | append_singleton init last ih =>
    by_cases hinit : FailsOnly (fun fault => ¬ fault.IsAtLexeme) (ofLexemes policy init)
    · exact ⟨init, last, [], rfl, h, hinit⟩
    · simp only [FailsOnly, not_forall, not_not] at hinit
      obtain ⟨fault', hread, hfault'⟩ := hinit
      -- the fault of the front is that of the whole, as it stays
      obtain rfl : fault' = fault :=
        Except.error.inj ((ofLexemes_append_eq_error hfault' hread [last]).symm.trans h)
      obtain ⟨before, lexeme, behind, rfl, hfound, hbefore⟩ := ih hread
      exact ⟨before, lexeme, behind ++ [last], by simp, hfound, hbefore⟩

end Formula

/-! ## Formulas that stay -/

/-- A run that is not strict ends at a closing parenthesis behind its lexemes, if not before. -/
theorem Run.append_closing {around : List Level} {level : Level} {lexemes : List Lexeme}
    {result : Formula × Nat × List Lexeme} (hlenient : ¬ policy.isStrict)
    (hrun : Run policy depth around level lexemes result) (behind : List Lexeme) :
    ∃ rest, Run policy depth around level (lexemes ++ .closing :: behind)
      (result.1, result.2.1, rest) := by
  induction hrun with
  | @atEnd around level group hdepth hclose =>
    -- no level is open around the one that ends
    obtain rfl : around = [] := List.eq_nil_of_length_eq_zero (by omega)
    exact ⟨behind, .lastClosing (fun hstray => hlenient hstray.2) hclose⟩
  | opening hdeep _ ih =>
    obtain ⟨rest, hrest⟩ := ih
    exact ⟨rest, .opening hdeep hrest⟩
  | lastClosing hstray hclose => exact ⟨_, .lastClosing hstray hclose⟩
  | closing hclose hadd _ ih =>
    obtain ⟨rest, hrest⟩ := ih
    exact ⟨rest, .closing hclose hadd hrest⟩
  | connective hadd _ ih =>
    obtain ⟨rest, hrest⟩ := ih
    exact ⟨rest, .connective hadd hrest⟩
  | condition hadd _ ih =>
    obtain ⟨rest, hrest⟩ := ih
    exact ⟨rest, .condition hadd hrest⟩

theorem Formula.ofLexemes_append_closing_eq_ok {lexemes : List Lexeme} {formula : Formula}
    (hlenient : ¬ policy.isStrict) (h : ofLexemes policy lexemes = .ok formula)
    (behind : List Lexeme) : ofLexemes policy (lexemes ++ .closing :: behind) = .ok formula := by
  obtain ⟨result, hread, rfl⟩ := map_eq_ok_iff.mp h
  obtain ⟨rest, hrun⟩ := (Run.of_readLevel hread).append_closing hlenient behind
  exact map_eq_ok_iff.mpr ⟨_, hrun.readLevel_eq, rfl⟩

/-- A fault that is found at a lexeme is also that of all longer lists of lexemes. It is brought
about by one of the lexemes, the first at which such a fault is found. And if a lenient reading
succeeds it gives the same formula where a closing parenthesis comes next, whatever comes behind. -/
theorem first_lexemes_decide (policy : Policy) (lexemes : List Lexeme) :
    (∀ fault, fault.IsAtLexeme → Formula.ofLexemes policy lexemes = .error fault →
      (∀ behind, Formula.ofLexemes policy (lexemes ++ behind) = .error fault) ∧
      ∃ before lexeme behind, lexemes = before ++ lexeme :: behind ∧
        Formula.ofLexemes policy (before ++ [lexeme]) = .error fault ∧
        ∀ fault', Formula.ofLexemes policy before = .error fault' → ¬ fault'.IsAtLexeme) ∧
    (policy.mode = .lenient → ∀ formula, Formula.ofLexemes policy lexemes = .ok formula →
      ∀ behind, Formula.ofLexemes policy (lexemes ++ .closing :: behind) = .ok formula) := by
  constructor
  · intro fault hfault h
    exact ⟨Formula.ofLexemes_append_eq_error hfault h, Formula.exists_lexeme_of_fault hfault h⟩
  · intro hlenient formula h behind
    exact Formula.ofLexemes_append_closing_eq_ok (by simp [Policy.isStrict_iff, hlenient]) h behind

/-- An OR that opens a group is refused, whether the group is closed or not. A lenient reading of a
condition does not get to the OR that stands behind a closing parenthesis. -/
theorem first_lexemes_decide_before_connective :
    Fault.IsAtLexeme (.danglingConnective .or) ∧
    Formula.ofLexemes ⟨.strict, 1, 2⟩ [.condition "a = 'x'", .connective .and, .opening,
        .connective .or] = .error (.danglingConnective .or) ∧
    Formula.ofLexemes ⟨.strict, 1, 2⟩ [.condition "a = 'x'", .connective .and, .opening,
        .connective .or, .condition "b = 'y'", .closing, .closing] =
      .error (.danglingConnective .or) ∧
    Formula.ofLexemes {} [.condition "a = 'x'"] = .ok (.test ⟨"a", .eq, .text "x"⟩) ∧
    Formula.ofLexemes {} [.condition "a = 'x'", .closing, .connective .or] =
      .ok (.test ⟨"a", .eq, .text "x"⟩) := by
  have hkind : Fault.IsAtLexeme (.danglingConnective .or) := trivial
  have hdangling : Formula.ofLexemes ⟨.strict, 1, 2⟩ [.condition "a = 'x'", .connective .and,
      .opening, .connective .or] = .error (.danglingConnective .or) := rfl
  have halone : Formula.ofLexemes {} [.condition "a = 'x'"] =
      .ok (.test ⟨"a", .eq, .text "x"⟩) := rfl
  exact ⟨hkind, hdangling,
    ((first_lexemes_decide ⟨.strict, 1, 2⟩ _).1 _ hkind hdangling).1
      [.condition "b = 'y'", .closing, .closing],
    halone, (first_lexemes_decide {} _).2 rfl _ halone [.connective .or]⟩

end Criteria
