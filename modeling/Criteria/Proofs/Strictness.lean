import Mathlib.Algebra.GroupWithZero.Nat
import Criteria.Proofs.Gaps
import Criteria.Proofs.Grammar

/-!
# Strict and lenient readings

A strict reading gives what the lenient reading of the same rule gives, or refuses the rule for
text that it cannot use. It refuses no rule of which the lenient reading has used everything: whose
gaps are blank, whose closing parentheses all close something, and all of whose conditions are in
the formula. What a lenient reading drops or replaces costs the formula a condition, so counting the
conditions is enough to see that nothing was lost.
-/

namespace Criteria

open Outcome

/-- The policy with the same limits that reads strictly. -/
def Policy.strictly (policy : Policy) : Policy :=
  { policy with mode := .strict }

/-- The policy with the same limits that reads leniently. -/
def Policy.leniently (policy : Policy) : Policy :=
  { policy with mode := .lenient }

/-- The fault is that of text which a strict reading cannot use. -/
def Fault.IsUnexpected (fault : Fault) : Prop :=
  ∃ text, fault = .unexpectedText text

theorem Fault.isUnexpected_text (text : String) : (Fault.unexpectedText text).IsUnexpected :=
  ⟨text, rfl⟩

/-! ## The strict run refines the lenient one -/

namespace Level

theorem addGroup_refines (policy : Policy) (level : Level) (group : Formula × Nat) :
    Refines Fault.IsUnexpected (level.addGroup policy.strictly group)
      (level.addGroup policy.leniently group) := by
  cases level with
  | empty => exact .refl _
  | waiting connective left leftHeight => exact .refl _
  | complete formula height => exact .of_refused (Fault.isUnexpected_text _) _

theorem addCondition_refines (policy : Policy) (level : Level) (text : String) :
    Refines Fault.IsUnexpected (level.addCondition policy.strictly text)
      (level.addCondition policy.leniently text) := by
  refine (Refines.refl (Condition.ofText text)).bind fun condition => ?_
  cases level with
  | empty => exact .refl _
  | waiting connective left leftHeight => exact .refl _
  | complete formula height => exact .of_refused (Fault.isUnexpected_text _) _

end Level

theorem readLevel_strictly_refines (policy : Policy) (lexemes : List Lexeme) (around : List Level)
    (level : Level) :
    Refines Fault.IsUnexpected (readLevel policy.strictly 0 around level lexemes)
      (readLevel policy.leniently 0 around level lexemes) :=
  readLevel_refines policy.strictly policy.leniently 0 (.inl rfl)
    (.inr ⟨rfl, Fault.isUnexpected_text _⟩) (Level.addGroup_refines policy)
    (Level.addCondition_refines policy) lexemes around level

namespace Lexeme

theorem scan_refines (rule : String) :
    Refines Fault.IsUnexpected (scan .strict rule) (scan .lenient rule) := by
  rw [scan_strict_eq]
  split
  · next hblank => exact .inr (by rw [scan_lenient_eq, if_pos hblank])
  · split
    · exact .of_refused (Fault.isUnexpected_text _) _
    · exact .refl _

theorem scan_lenient_failsOnly (rule : String) : FailsOnly (· = .emptyRule) (scan .lenient rule) := by
  rw [scan_lenient_eq]
  split
  · exact failsOnly_error rfl
  · split
    · exact failsOnly_error rfl
    · exact failsOnly_ok _

/-- What a lenient scan finds are the lexemes among the pieces. -/
theorem occurrencesFrom_pieces_of_scan {rule : String} {occurrences : List Occurrence}
    (h : scan .lenient rule = .ok occurrences) :
    occurrencesFrom 0 (pieces rule.toList) = occurrences := by
  rw [scan_lenient_eq] at h
  split at h
  · simp at h
  · split at h
    · simp at h
    · exact Except.ok.inj h

/-- The strict scan of a rule succeeds iff the lenient one does and leaves only blanks outside the
lexemes that it finds; the lexemes are the same. -/
theorem scan_strict_eq_ok_iff {rule : String} {occurrences : List Occurrence} :
    scan .strict rule = .ok occurrences ↔
      scan .lenient rule = .ok occurrences ∧ BlankOutside rule.toList occurrences := by
  constructor
  · intro h
    have hlenient := (scan_refines rule).eq_ok h
    refine ⟨hlenient, ?_⟩
    rw [← occurrencesFrom_pieces_of_scan hlenient, ← strayText?_eq_none_iff]
    rw [scan_strict_eq] at h
    split at h
    · simp at h
    · split at h
      · simp at h
      · assumption
  · rintro ⟨hlenient, hblank⟩
    rw [← occurrencesFrom_pieces_of_scan hlenient, ← strayText?_eq_none_iff] at hblank
    rw [scan_strict_eq, hblank, hlenient]
    split
    · next hall => rw [scan_lenient_eq, if_pos hall] at hlenient; simp at hlenient
    · rfl

end Lexeme

/-! ## Compiling -/

/-- Compiling strictly refines compiling leniently. -/
theorem Rule.compile_strictly_refines (policy : Policy) (rule : String) :
    Refines Fault.IsUnexpected (compile policy.strictly rule) (compile policy.leniently rule) := by
  refine (Lexeme.scan_refines rule).bind fun occurrences => ?_
  exact (readLevel_strictly_refines policy _ [] .empty).map _

/-- What a rule compiles to strictly it compiles to in either mode. -/
theorem Rule.compile_eq_of_strictly {policy : Policy} {rule : String} {formula : Formula}
    (h : compile policy.strictly rule = .ok formula) : compile policy rule = .ok formula := by
  obtain ⟨mode, maxNesting, maxHeight⟩ := policy
  cases mode with
  | strict => exact h
  | lenient => exact (compile_strictly_refines _ _).eq_ok h

/-- Compiling leniently never ends with text that cannot be used. -/
theorem Rule.compile_leniently_avoids (policy : Policy) (rule : String) :
    FailsOnly (fun fault => ¬ fault.IsUnexpected) (compile policy.leniently rule) := by
  refine ((Lexeme.scan_lenient_failsOnly rule).mono ?_).bind fun occurrences _ =>
    (Formula.ofLexemes_failsOnly policy.leniently _).mono ?_
  · rintro _ rfl ⟨_, h⟩
    cases h
  · rintro _ (hrefused | ⟨_, -, hfault, -⟩) ⟨text, rfl⟩
    · -- only a strict reading refuses a text
      cases hrefused
    · cases hfault

/-! ## Counting conditions -/

namespace Lexeme

/-- The lexeme is a condition. -/
def isCondition : Lexeme → Bool
  | condition _ => true
  | _ => false

/-- Every closing parenthesis closes one of so many that are open before, or one that is opened
among the lexemes. -/
def closesOnlyOpen : Nat → List Lexeme → Bool
  | _, [] => true
  | opened, opening :: rest => closesOnlyOpen (opened + 1) rest
  | opened + 1, closing :: rest => closesOnlyOpen opened rest
  | 0, closing :: _ => false
  | opened, connective _ :: rest => closesOnlyOpen opened rest
  | opened, condition _ :: rest => closesOnlyOpen opened rest

end Lexeme

/-- The parentheses of a derivation are closed within it. -/
theorem Derives.closesOnlyOpen_append {category : Category} {lexemes : List Lexeme}
    {formula : Formula} {nesting : Nat} (h : Derives category lexemes formula nesting) :
    ∀ (opened : Nat) (rest : List Lexeme),
      Lexeme.closesOnlyOpen opened (lexemes ++ rest) = Lexeme.closesOnlyOpen opened rest := by
  induction h with
  | condition _ => intro opened rest; rfl
  | group _ ih =>
    intro opened rest
    rw [List.append_assoc, List.cons_append, Lexeme.closesOnlyOpen, ih]
    rfl
  | operand _ ih => exact ih
  | join connective _ _ ihLeft ihRight =>
    intro opened rest
    rw [List.append_assoc, List.cons_append, ihLeft, Lexeme.closesOnlyOpen, ihRight]

/-- A derivation uses every condition among its lexemes. -/
theorem Derives.size_eq {category : Category} {lexemes : List Lexeme} {formula : Formula}
    {nesting : Nat} (h : Derives category lexemes formula nesting) :
    formula.size = lexemes.countP Lexeme.isCondition := by
  induction h with
  | condition _ => rfl
  | group _ ih => simpa [Lexeme.isCondition] using ih
  | operand _ ih => exact ih
  | join connective _ _ ihLeft ihRight =>
    simp [Formula.size, Lexeme.isCondition, ihLeft, ihRight]

namespace Level

/-- The number of conditions in what has been read of a level. -/
def size : Level → Nat
  | empty => 0
  | complete formula _ => formula.size
  | waiting _ left _ => left.size

theorem close_size {level : Level} {group : Formula × Nat} (h : level.close = .ok group) :
    group.1.size = level.size := by
  obtain rfl := eq_of_close h
  rfl

theorem addConnective_size {level level' : Level} {connective : Connective}
    (h : level.addConnective connective = .ok level') : level'.size = level.size := by
  obtain ⟨formula, height, rfl, rfl⟩ := exists_of_addConnective h
  rfl

theorem ofJoin_size {policy : Policy} {connective : Connective} {left right : Formula × Nat}
    {level : Level} (h : ofJoin policy connective left right = .ok level) :
    level.size = left.1.size + right.1.size := by
  rw [eq_of_ofJoin h]
  rfl

/-- A lenient reading keeps at most the conditions of the level and of the group. Where it keeps
them all, a strict reading does the same. -/
theorem addGroup_size {policy : Policy} {level level' : Level} {group : Formula × Nat}
    (h : level.addGroup policy.leniently group = .ok level') :
    level'.size ≤ level.size + group.1.size ∧
      (level'.size = level.size + group.1.size →
        level.addGroup policy.strictly group = .ok level') := by
  have hpos : 0 < group.1.size := group.1.size_pos
  cases level with
  | empty =>
    obtain rfl := Except.ok.inj h
    exact ⟨by simp [size], fun _ => rfl⟩
  | waiting connective left leftHeight =>
    have hsize := ofJoin_size h
    exact ⟨Nat.le_of_eq hsize, fun _ => h⟩
  | complete formula height =>
    cases formula with
    | test condition =>
      obtain rfl := Except.ok.inj h
      exact ⟨by omega, fun hsize => by omega⟩
    | join connective left right =>
      have hsize := ofJoin_size h
      have hright : 0 < right.size := right.size_pos
      simp only [size, Formula.size] at hsize ⊢
      exact ⟨by omega, fun hequal => by omega⟩

/-- The same for a condition. -/
theorem addCondition_size {policy : Policy} {level level' : Level} {text : String}
    (h : level.addCondition policy.leniently text = .ok level') :
    level'.size ≤ level.size + 1 ∧
      (level'.size = level.size + 1 → level.addCondition policy.strictly text = .ok level') := by
  obtain ⟨condition, htext, hadd⟩ := bind_eq_ok_iff.mp h
  cases level with
  | empty =>
    obtain rfl := Except.ok.inj hadd
    exact ⟨by simp [size, Formula.size], fun _ => h⟩
  | waiting connective left leftHeight =>
    have hsize := ofJoin_size hadd
    exact ⟨Nat.le_of_eq hsize, fun _ => h⟩
  | complete formula height =>
    obtain rfl := Except.ok.inj hadd
    exact ⟨by omega, fun hsize => by omega⟩

end Level

/-- A lenient run that meets no parenthesis too many keeps at most the conditions that it has read
and has still to read. Where it keeps them all, the strict run gives the same. -/
theorem Run.size_le {policy : Policy} {around : List Level} {level : Level} {lexemes : List Lexeme}
    {result : Formula × Nat × List Lexeme}
    (hrun : Run policy.leniently 0 around level lexemes result)
    (hclosed : Lexeme.closesOnlyOpen around.length lexemes = true) :
    result.1.size ≤
        (around.map Level.size).sum + level.size + lexemes.countP Lexeme.isCondition ∧
      (result.1.size =
          (around.map Level.size).sum + level.size + lexemes.countP Lexeme.isCondition →
        Run policy.strictly 0 around level lexemes result) := by
  induction hrun with
  | atEnd hdepth hclose =>
    have hsize := Level.close_size hclose
    exact ⟨by simp only; omega, fun _ => .atEnd hdepth hclose⟩
  | opening hdeep _ ih =>
    -- the conditions of the level are counted with those of the stack from here on
    obtain ⟨hle, hstrict⟩ := ih hclosed
    have hempty : Level.empty.size = 0 := rfl
    simp only [List.map_cons, List.sum_cons, Lexeme.isCondition, List.countP_cons,
      Bool.false_eq_true, if_false] at hle hstrict ⊢
    exact ⟨by omega, fun hequal => .opening hdeep (hstrict (by omega))⟩
  | lastClosing _ _ => simp [Lexeme.closesOnlyOpen] at hclosed
  | closing hclose hadd _ ih =>
    obtain ⟨hle, hstrict⟩ := ih hclosed
    -- a group that is kept whole was added as in a strict reading
    obtain ⟨haddle, haddstrict⟩ := Level.addGroup_size hadd
    have hsize := Level.close_size hclose
    simp only [List.map_cons, List.sum_cons, Lexeme.isCondition, List.countP_cons,
      Bool.false_eq_true, if_false] at hle hstrict ⊢
    exact ⟨by omega, fun hequal =>
      .closing hclose (haddstrict (by omega)) (hstrict (by omega))⟩
  | connective hadd _ ih =>
    obtain ⟨hle, hstrict⟩ := ih hclosed
    have hsize := Level.addConnective_size hadd
    simp only [Lexeme.isCondition, List.countP_cons, Bool.false_eq_true, if_false]
      at hle hstrict ⊢
    exact ⟨by omega, fun hequal => .connective hadd (hstrict (by omega))⟩
  | condition hadd _ ih =>
    obtain ⟨hle, hstrict⟩ := ih hclosed
    obtain ⟨haddle, haddstrict⟩ := Level.addCondition_size hadd
    simp only [Lexeme.isCondition, List.countP_cons, if_true] at hle hstrict ⊢
    exact ⟨by omega, fun hequal => .condition (haddstrict (by omega)) (hstrict (by omega))⟩

/-- A lenient reading is also the strict one iff it meets no parenthesis too many and keeps every
condition. -/
theorem ofLexemes_strictly_eq_ok_iff {policy : Policy} {lexemes : List Lexeme}
    {formula : Formula} :
    Formula.ofLexemes policy.strictly lexemes = .ok formula ↔
      Formula.ofLexemes policy.leniently lexemes = .ok formula ∧
        Lexeme.closesOnlyOpen 0 lexemes = true ∧
        formula.size = lexemes.countP Lexeme.isCondition := by
  constructor
  · intro h
    obtain ⟨nesting, hderives, -⟩ := derives_of_ofLexemes rfl h
    have hlenient := ((readLevel_strictly_refines policy lexemes [] .empty).map (·.1)).eq_ok h
    refine ⟨hlenient, ?_, hderives.size_eq⟩
    have hclosed := hderives.closesOnlyOpen_append 0 []
    rwa [List.append_nil] at hclosed
  · rintro ⟨hlenient, hclosed, hsize⟩
    obtain ⟨result, hread, rfl⟩ := map_eq_ok_iff.mp hlenient
    have hstrict := ((Run.of_readLevel hread).size_le hclosed).2 (by simpa [Level.size] using hsize)
    rw [Formula.ofLexemes, hstrict.readLevel_eq]
    rfl

/-- A strict compilation is the lenient one or refuses the rule for text that it cannot use, which
the lenient one never does. It succeeds iff the lenient one does and has lost nothing: there are
only blanks outside the lexemes, every closing parenthesis closes one that is open, and the formula
has as many conditions as the rule. -/
theorem strict_compile_iff_nothing_lost (policy : Policy) (rule : String) :
    ((∃ text, Rule.compile policy.strictly rule = .error (.unexpectedText text)) ∨
      Rule.compile policy.strictly rule = Rule.compile policy.leniently rule) ∧
    (∀ text, Rule.compile policy.leniently rule ≠ .error (.unexpectedText text)) ∧
    ((∃ formula, Rule.compile policy.strictly rule = .ok formula) ↔
      ∃ formula occurrences, Rule.compile policy.leniently rule = .ok formula ∧
        Lexeme.scan .lenient rule = .ok occurrences ∧
        Lexeme.BlankOutside rule.toList occurrences ∧
        Lexeme.closesOnlyOpen 0 (occurrences.map (·.lexeme)) = true ∧
        formula.size = (occurrences.map (·.lexeme)).countP Lexeme.isCondition) := by
  refine ⟨?_, ?_, ?_, ?_⟩
  · rcases Rule.compile_strictly_refines policy rule with ⟨_, ⟨text, rfl⟩, hfault⟩ | hequal
    · exact .inl ⟨text, hfault⟩
    · exact .inr hequal
  · intro text hfault
    exact Rule.compile_leniently_avoids policy rule _ hfault (Fault.isUnexpected_text text)
  · rintro ⟨formula, hcompile⟩
    have hlenient := (Rule.compile_strictly_refines policy rule).eq_ok hcompile
    obtain ⟨occurrences, hscan, hread⟩ := bind_eq_ok_iff.mp hcompile
    obtain ⟨hscan, hblank⟩ := Lexeme.scan_strict_eq_ok_iff.mp hscan
    obtain ⟨-, hclosed, hsize⟩ := ofLexemes_strictly_eq_ok_iff.mp hread
    exact ⟨formula, occurrences, hlenient, hscan, hblank, hclosed, hsize⟩
  · rintro ⟨formula, occurrences, hcompile, hscan, hblank, hclosed, hsize⟩
    obtain ⟨occurrences', hscan', hread⟩ := bind_eq_ok_iff.mp hcompile
    obtain rfl : occurrences' = occurrences := Except.ok.inj (hscan'.symm.trans hscan)
    refine ⟨formula, bind_eq_ok_iff.mpr ⟨occurrences', ?_, ?_⟩⟩
    · exact Lexeme.scan_strict_eq_ok_iff.mpr ⟨hscan, hblank⟩
    · exact ofLexemes_strictly_eq_ok_iff.mpr ⟨hread, hclosed, hsize⟩

end Criteria
