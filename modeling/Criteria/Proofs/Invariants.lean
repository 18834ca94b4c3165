import Criteria.Proofs.Phrases
import Criteria.Proofs.Reading

/-!
# What every reading preserves

Reading makes formulas in three ways: of a condition, by a join within the limit, and by taking the
left side of a join whose right side is replaced. What these preserve holds of every formula that a
reading gives (`Run.keeps`), of every compiled rule and of every combination of rules. Two
such properties are proved here. The height that is carried beside a formula is its height, and the
formula keeps the limit; and the fields of its conditions have names.
-/

namespace Criteria

open Outcome

/-! ## Properties that reading preserves -/

/-- The property holds of a formula and the height carried beside it whenever reading conditions
that satisfy `p` makes them. -/
structure Policy.Keeps (policy : Policy) (p : String → Prop) (q : Formula → Nat → Prop) : Prop where
  test : ∀ {text : String} {condition : Condition}, p text →
    Condition.ofText text = .ok condition → q (.test condition) 1
  join : ∀ {connective : Connective} {left right joined : Formula × Nat},
    q left.1 left.2 → q right.1 right.2 →
    Formula.joinWithin policy connective left right = .ok joined → q joined.1 joined.2
  left : ∀ {connective : Connective} {left right : Formula} {height : Nat},
    q (.join connective left right) height → q left left.height

/-- The property holds of the formula of a level. -/
def Level.All (q : Formula → Nat → Prop) : Level → Prop
  | empty => True
  | complete formula height => q formula height
  | waiting _ left leftHeight => q left leftHeight

namespace Level

variable {policy : Policy} {p : String → Prop} {q : Formula → Nat → Prop} {level level' : Level}

theorem All.close (h : level.All q) {group : Formula × Nat} (hclose : level.close = .ok group) :
    q group.1 group.2 := by
  obtain rfl := eq_of_close hclose
  exact h

theorem All.addConnective (h : level.All q) {connective : Connective}
    (hadd : level.addConnective connective = .ok level') : level'.All q := by
  obtain ⟨formula, height, rfl, rfl⟩ := exists_of_addConnective hadd
  exact h

theorem all_ofJoin (hkeeps : policy.Keeps p q) {connective : Connective}
    {left right : Formula × Nat} (hleft : q left.1 left.2) (hright : q right.1 right.2)
    (h : ofJoin policy connective left right = .ok level') : level'.All q := by
  obtain ⟨joined, hjoin, rfl⟩ := map_eq_ok_iff.mp h
  exact hkeeps.join hleft hright hjoin

theorem All.addGroup (hkeeps : policy.Keeps p q) (h : level.All q) {group : Formula × Nat}
    (hgroup : q group.1 group.2) (hadd : level.addGroup policy group = .ok level') :
    level'.All q := by
  obtain ⟨rfl, rfl⟩ | ⟨connective, left, leftHeight, rfl, hjoin⟩ | rfl |
    ⟨connective, left, right, height, rfl, hjoin⟩ := cases_of_addGroup hadd
  · exact hgroup
  · have hleft : q left leftHeight := h
    exact all_ofJoin hkeeps hleft hgroup hjoin
  · exact h
  · exact all_ofJoin hkeeps (hkeeps.left h) hgroup hjoin

theorem All.addCondition (hkeeps : policy.Keeps p q) (h : level.All q) {text : String}
    (htext : p text) (hadd : level.addCondition policy text = .ok level') : level'.All q := by
  obtain ⟨condition, hcondition, rfl | hadd⟩ := cases_of_addCondition hadd
  · exact h
  · exact h.addGroup hkeeps (hkeeps.test htext hcondition) hadd

end Level

/-! ## Readings, compiled rules and combinations -/

section

variable {policy : Policy} {p : String → Prop} {q : Formula → Nat → Prop}

/-- What is preserved by every step of a reading holds of the formula that the reading gives. -/
theorem Run.keeps (hkeeps : policy.Keeps p q) {depth : Nat} {around : List Level} {level : Level}
    {lexemes : List Lexeme} {result : Formula × Nat × List Lexeme}
    (hrun : Run policy depth around level lexemes result)
    (htexts : ∀ text, .condition text ∈ lexemes → p text) (haround : ∀ outer ∈ around, outer.All q)
    (hlevel : level.All q) : q result.1 result.2.1 := by
  induction hrun with
  | atEnd _ hclose => exact hlevel.close hclose
  | lastClosing _ hclose => exact hlevel.close hclose
  | opening _ _ ih =>
    exact ih (fun _ hmem => htexts _ (.tail _ hmem)) (List.forall_mem_cons.mpr ⟨hlevel, haround⟩)
      trivial
  | closing hclose hadd _ ih =>
    obtain ⟨houter, haround⟩ := List.forall_mem_cons.mp haround
    exact ih (fun _ hmem => htexts _ (.tail _ hmem)) haround
      (houter.addGroup hkeeps (hlevel.close hclose) hadd)
  | connective hadd _ ih =>
    exact ih (fun _ hmem => htexts _ (.tail _ hmem)) haround
      (hlevel.addConnective hadd)
  | condition hadd _ ih =>
    exact ih (fun _ hmem => htexts _ (.tail _ hmem)) haround
      (hlevel.addCondition hkeeps (htexts _ List.mem_cons_self) hadd)

theorem Rule.compile_keeps (hkeeps : policy.Keeps p q) {rule : String} {formula : Formula}
    (htexts : ∀ occurrences, Lexeme.scan policy.mode rule = .ok occurrences →
      ∀ text, .condition text ∈ occurrences.map (·.lexeme) → p text)
    (h : compile policy rule = .ok formula) : ∃ height, q formula height := by
  obtain ⟨occurrences, hscan, hread⟩ := bind_eq_ok_iff.mp h
  obtain ⟨result, hresult, rfl⟩ := map_eq_ok_iff.mp hread
  exact ⟨result.2.1, (Run.of_readLevel hresult).keeps hkeeps (htexts occurrences hscan)
    (List.forall_mem_nil _) trivial⟩

theorem Formula.combine_keeps (hkeeps : policy.Keeps p q) {connective : Connective}
    {formulas : List Formula} {formula : Formula}
    (hformulas : ∀ formula ∈ formulas, q formula formula.height)
    (h : combine policy connective formulas = .ok formula) : ∃ height, q formula height := by
  cases formulas with
  | nil => simp [combine] at h
  | cons first rest =>
    obtain ⟨hfirst, hrest⟩ := List.forall_mem_cons.mp hformulas
    -- the fold starts with the first formula, so the induction is over any formula joined so far
    have hfold : ∀ (rest : List Formula) (joined result : Formula × Nat),
        (∀ formula ∈ rest, q formula formula.height) → q joined.1 joined.2 →
        rest.foldlM (fun joined next =>
          joinWithin policy connective joined (next, next.height)) joined = .ok result →
        q result.1 result.2 := by
      intro rest
      induction rest with
      | nil =>
        intro joined result _ hjoined hfold
        obtain rfl := Except.ok.inj hfold
        exact hjoined
      | cons next rest ih =>
        intro joined result hrest hjoined hfold
        obtain ⟨hnext, hrest⟩ := List.forall_mem_cons.mp hrest
        rw [List.foldlM_cons] at hfold
        obtain ⟨joined', hjoin, hfold⟩ := bind_eq_ok_iff.mp hfold
        exact ih joined' result hrest (hkeeps.join hjoined hnext hjoin) hfold
    obtain ⟨result, hresult, rfl⟩ := map_eq_ok_iff.mp h
    exact ⟨result.2, hfold rest _ result hrest hfirst hresult⟩

end

/-! ## Formulas of rules -/

/-- The formula is that of a rule, or of rules combined by a connective. -/
def Policy.Makes (policy : Policy) (formula : Formula) : Prop :=
  (∃ rule, Rule.compile policy rule = .ok formula) ∨
    ∃ connective rules, Rule.combine policy connective rules = .ok formula

/-- What reading the scanned conditions of rules preserves holds of the formulas of rules and of
their heights. -/
theorem Policy.Makes.keeps_scanned {policy : Policy} {formula : Formula} (h : policy.Makes formula)
    {p : String → Prop} {q : Formula → Nat → Prop} (hkeeps : policy.Keeps p q)
    (hheight : ∀ {formula height}, q formula height → q formula formula.height)
    (htexts : ∀ {rule occurrences}, Lexeme.scan policy.mode rule = .ok occurrences →
      ∀ text, .condition text ∈ occurrences.map (·.lexeme) → p text) :
    q formula formula.height := by
  have hcompile : ∀ {rule formula}, Rule.compile policy rule = .ok formula →
      q formula formula.height := by
    intro rule formula h
    obtain ⟨height, hq⟩ := Rule.compile_keeps hkeeps (fun _ hscan => htexts hscan) h
    exact hheight hq
  rcases h with ⟨rule, h⟩ | ⟨connective, rules, h⟩
  · exact hcompile h
  · obtain ⟨formulas, hmap, hcombine⟩ := Rule.exists_formulas_of_combine h
    have hformulas : ∀ formula ∈ formulas, q formula formula.height := by
      intro formula hmem
      obtain ⟨rule, -, hrule⟩ := exists_of_mapM_eq_ok hmap hmem
      exact hcompile hrule
    obtain ⟨height, hq⟩ := Formula.combine_keeps hkeeps hformulas hcombine
    exact hheight hq

/-- What every reading preserves holds of the formulas of rules and of their heights. -/
theorem Policy.Makes.keeps {policy : Policy} {formula : Formula} (h : policy.Makes formula)
    {q : Formula → Nat → Prop} (hkeeps : policy.Keeps (fun _ => True) q)
    (hheight : ∀ {formula height}, q formula height → q formula formula.height) :
    q formula formula.height :=
  h.keeps_scanned hkeeps hheight fun _ _ _ => trivial

/-! ## Heights -/

/-- The height that is carried is the height, and the formula keeps the limit. -/
theorem Policy.keeps_height (policy : Policy) :
    policy.Keeps (fun _ => True) fun formula height =>
      height = formula.height ∧ policy.Fits formula where
  test _ _ := ⟨rfl, fits_test _ _⟩
  join := by
    rintro connective ⟨left, leftHeight⟩ ⟨right, rightHeight⟩ joined ⟨hleft, -⟩ ⟨hright, -⟩ h
    obtain rfl : leftHeight = left.height := hleft
    obtain rfl : rightHeight = right.height := hright
    obtain ⟨hheight, rfl⟩ := Formula.eq_of_joinWithin h
    exact ⟨rfl, fits_join_iff.mpr hheight⟩
  -- where a right side is replaced the height of the left side is measured anew
  left h := ⟨rfl, h.2.sides.1⟩

/-- The formula of a rule is a condition alone or keeps the limit on its height. -/
theorem Policy.Makes.fits {policy : Policy} {formula : Formula} (h : policy.Makes formula) :
    policy.Fits formula :=
  (h.keeps policy.keeps_height fun hq => ⟨rfl, hq.2⟩).2

/-- The height that a reading gives beside its formula is that of the formula, and the formula keeps
the limit. It is so for a level at any depth. -/
theorem readLevel_height {policy : Policy} {depth : Nat} {lexemes : List Lexeme}
    {result : Formula × Nat × List Lexeme}
    (h : readLevel policy depth [] .empty lexemes = .ok result) :
    result.2.1 = result.1.height ∧ policy.Fits result.1 :=
  (Run.of_readLevel h).keeps policy.keeps_height (fun _ _ => trivial) (List.forall_mem_nil _) trivial

/-- At whatever depth and lexeme the reading of a level starts, the height that it gives is that of
the formula, and a formula of more than one level keeps the limit. So do the formulas of lexemes, of
rules and of combined rules. -/
theorem height_of_reading (policy : Policy) :
    (∀ depth lexemes formula height behind,
      readLevel policy depth [] .empty lexemes = .ok (formula, height, behind) →
      height = formula.height ∧ height ≤ max 1 policy.maxHeight) ∧
    (∀ lexemes formula, Formula.ofLexemes policy lexemes = .ok formula →
      formula.height ≤ max 1 policy.maxHeight) ∧
    (∀ rule formula, Rule.compile policy rule = .ok formula →
      formula.height ≤ max 1 policy.maxHeight) ∧
    (∀ connective rules formula, Rule.combine policy connective rules = .ok formula →
      formula.height ≤ max 1 policy.maxHeight) := by
  refine ⟨?_, ?_, ?_, ?_⟩
  · intro depth lexemes formula height behind h
    obtain ⟨hheight, hfits⟩ := readLevel_height h
    exact ⟨hheight, Nat.le_trans (Nat.le_of_eq hheight) hfits.height_le⟩
  · intro lexemes formula h
    obtain ⟨result, hread, rfl⟩ := map_eq_ok_iff.mp h
    exact (readLevel_height hread).2.height_le
  · intro rule formula h
    exact (Policy.Makes.fits (.inl ⟨rule, h⟩)).height_le
  · intro connective rules formula h
    exact (Policy.Makes.fits (.inr ⟨connective, rules, h⟩)).height_le

/-- Behind three open parentheses a group of two levels takes the place of a right side, which makes
three levels. With a limit of zero a condition alone is still read, and has one level. -/
theorem height_of_replaced_side :
    readLevel ⟨.lenient, 9, 3⟩ 3 [] .empty [.condition "a = 'x'", .connective .and,
        .condition "b = 'y'", .opening, .condition "c = 'z'", .connective .or,
        .condition "d = ''", .closing, .closing, .connective .or] =
      .ok (.join .and (.test ⟨"a", .eq, .text "x"⟩)
        (.join .or (.test ⟨"c", .eq, .text "z"⟩) (.test ⟨"d", .eq, .text ""⟩)), 3,
        [.connective .or]) ∧
    3 = (Formula.join .and (.test ⟨"a", .eq, .text "x"⟩)
      (.join .or (.test ⟨"c", .eq, .text "z"⟩) (.test ⟨"d", .eq, .text ""⟩))).height ∧
    3 ≤ max 1 3 ∧
    Formula.ofLexemes ⟨.strict, 0, 0⟩ [.condition "a = 'x'"] = .ok (.test ⟨"a", .eq, .text "x"⟩) ∧
    (Formula.test ⟨"a", .eq, .text "x"⟩).height ≤ max 1 0 := by
  have hreplaced : readLevel ⟨.lenient, 9, 3⟩ 3 [] .empty [.condition "a = 'x'", .connective .and,
      .condition "b = 'y'", .opening, .condition "c = 'z'", .connective .or,
      .condition "d = ''", .closing, .closing, .connective .or] =
        .ok (.join .and (.test ⟨"a", .eq, .text "x"⟩)
          (.join .or (.test ⟨"c", .eq, .text "z"⟩) (.test ⟨"d", .eq, .text ""⟩)), 3,
          [.connective .or]) := rfl
  have halone : Formula.ofLexemes ⟨.strict, 0, 0⟩ [.condition "a = 'x'"] =
      .ok (.test ⟨"a", .eq, .text "x"⟩) := rfl
  obtain ⟨hheight, hlimit⟩ := (height_of_reading ⟨.lenient, 9, 3⟩).1 _ _ _ _ _ hreplaced
  exact ⟨hreplaced, hheight, hlimit, halone,
    (height_of_reading ⟨.strict, 0, 0⟩).2.1 _ _ halone⟩

/-! ## Conditions -/

/-- What holds of all conditions that are read holds of all conditions of the formula. -/
theorem Policy.keeps_conditions (policy : Policy) {p : String → Prop} {r : Condition → Prop}
    (hr : ∀ {text condition}, p text → Condition.ofText text = .ok condition → r condition) :
    policy.Keeps p fun formula _ => ∀ condition ∈ formula.conditions, r condition where
  test := by
    intro text condition htext hcondition other hmem
    obtain rfl := List.mem_singleton.mp hmem
    exact hr htext hcondition
  join := by
    intro connective left right joined hleft hright h
    obtain ⟨-, rfl⟩ := Formula.eq_of_joinWithin h
    exact List.forall_mem_append.mpr ⟨hleft, hright⟩
  left h := (List.forall_mem_append.mp h).1

/-- The fields in the formula of a rule have names. -/
theorem Policy.Makes.isName {policy : Policy} {formula : Formula} (h : policy.Makes formula) :
    ∀ condition ∈ formula.conditions, Criteria.isName condition.field.toList = true :=
  h.keeps (policy.keeps_conditions fun _ htext => Condition.isName_of_ofText htext) id

/-- The numbers in the formula of a rule are nearest to natural numbers. -/
theorem Policy.Makes.exists_ofNat {policy : Policy} {formula : Formula} (h : policy.Makes formula) :
    ∀ condition ∈ formula.conditions, ∀ value, condition.value = .number value →
      ∃ n, value = .ofNat n :=
  h.keeps (policy.keeps_conditions fun _ htext _ hvalue =>
    Condition.exists_ofNat_of_ofText htext hvalue) id

end Criteria
