import Criteria.Proofs.Documents
import Criteria.Proofs.Invariants
import Criteria.Proofs.Rendering
import Criteria.Proofs.Rounding

/-!
# Formulas of rules are read back

The formula of a rule is never too high to be stored and names all its fields, so what its document
is read as depends on its numbers alone. A rule may hold digits beyond the range of the format,
which stand for an infinite number; such a rule compiles, and its formula is lost once it is stored.
-/

namespace Criteria

open Number (Binary64)

/-- The number that a literal is. -/
def Literal.number? : Literal → Option Binary64
  | number value => some value
  | text _ => none

/-- The numbers that a formula compares fields with. -/
def Formula.numbers (formula : Formula) : List Binary64 :=
  formula.conditions.filterMap (·.value.number?)

theorem Formula.mem_numbers_iff {formula : Formula} {value : Binary64} :
    value ∈ formula.numbers ↔ ∃ condition ∈ formula.conditions, condition.value = .number value := by
  have hnumber : ∀ literal : Literal, literal.number? = some value ↔ literal = .number value := by
    intro literal
    cases literal <;> simp [Literal.number?]
  simp [numbers, List.mem_filterMap, hnumber]

theorem Json.ReadsBack.isFinite {value : Binary64} (h : Json.ReadsBack value) :
    value.isFinite = true := by
  cases hfinite : value.isFinite with
  | true => rfl
  | false =>
    have hlost := Literal.reread?_of_not_isFinite hfinite
    rw [Literal.reread?_number_eq_self_iff.mpr h] at hlost
    exact absurd hlost (by simp)

/-- The formula of a rule or of a combination of rules comes back from the text of its document iff
the JSON text of each of its numbers brings the number back. Where it does so for the finite ones,
the formula comes back iff all its numbers are finite. A formula with a number that is not finite
does not come back as any formula; its numbers are nearest to natural numbers, of which those from
`2 ^ 1024 - 2 ^ 970` on are not finite. -/
theorem stored_formula_comes_back_iff {formula : Formula} (h : Policy.Makes {} formula) :
    (Formula.ofText? formula.toText = some formula ↔
      ∀ value ∈ formula.numbers, Json.ReadsBack value) ∧
    ((∀ value ∈ formula.numbers, value.isFinite = true → Json.ReadsBack value) →
      (Formula.ofText? formula.toText = some formula ↔
        ∀ value ∈ formula.numbers, value.isFinite = true)) ∧
    ((∃ value ∈ formula.numbers, value.isFinite = false) →
      Formula.ofText? formula.toText = none) ∧
    (∀ value ∈ formula.numbers, ∃ n, value = .ofNat n ∧
      (value.isFinite = true ↔ n < 2 ^ 1024 - 2 ^ 970)) := by
  have hheight : formula.height ≤ StoredNode.maxLevels := h.fits.height_le
  -- no name is empty
  have hfields : "" ∉ formula.conditions.map (·.field) := by
    intro hmem
    obtain ⟨condition, hcondition, hempty⟩ := List.mem_map.mp hmem
    have hname := h.isName condition hcondition
    rw [hempty] at hname
    exact absurd hname (by decide)
  have hback : Formula.ofText? formula.toText = some formula ↔
      ∀ value ∈ formula.numbers, Json.ReadsBack value := by
    rw [Formula.ofText?_toText hheight hfields, Formula.reread?_eq_self_iff]
    constructor
    · intro hall value hmem
      obtain ⟨condition, hcondition, hvalue⟩ := Formula.mem_numbers_iff.mp hmem
      exact Literal.reread?_eq_self_iff.mp (hall condition hcondition) value hvalue
    · intro hall condition hcondition
      refine Literal.reread?_eq_self_iff.mpr fun value hvalue => ?_
      exact hall value (Formula.mem_numbers_iff.mpr ⟨condition, hcondition, hvalue⟩)
  refine ⟨hback, ?_, ?_, ?_⟩
  · intro hlibrary
    rw [hback]
    constructor
    · intro hall value hmem
      exact (hall value hmem).isFinite
    · intro hall value hmem
      exact hlibrary value hmem (hall value hmem)
  · rintro ⟨value, hmem, hinfinite⟩
    obtain ⟨condition, hcondition, hvalue⟩ := Formula.mem_numbers_iff.mp hmem
    rw [Formula.ofText?_toText hheight hfields]
    refine Formula.reread?_eq_none hcondition ?_
    rw [hvalue]
    exact Literal.reread?_of_not_isFinite hinfinite
  · intro value hmem
    obtain ⟨condition, hcondition, hvalue⟩ := Formula.mem_numbers_iff.mp hmem
    obtain ⟨n, rfl⟩ := h.exists_ofNat condition hcondition value hvalue
    exact ⟨n, rfl, Binary64.isFinite_ofNat_iff⟩

/-- A formula with the number 42 comes back, and one with `10 ^ 309`, which is beyond the range of
the format, does not. -/
theorem stored_formula_comes_back_unless_infinite :
    (Rule.compile {} "n >= 42 OR name = 'x'" =
        .ok (.join .or (.test ⟨"n", .ge, .number (.ofNat 42)⟩) (.test ⟨"name", .eq, .text "x"⟩)) ∧
      Formula.ofText? (Formula.join .or (.test ⟨"n", .ge, .number (.ofNat 42)⟩)
          (.test ⟨"name", .eq, .text "x"⟩)).toText =
        some (.join .or (.test ⟨"n", .ge, .number (.ofNat 42)⟩)
          (.test ⟨"name", .eq, .text "x"⟩))) ∧
    Rule.compile {} (String.ofList ("n = 1".toList ++ Number.zeros 309)) =
        .ok (.test ⟨"n", .eq, .number (.infinite false)⟩) ∧
      Formula.ofText? (Formula.test ⟨"n", .eq, .number (.infinite false)⟩).toText = none := by
  have hsmall : Rule.compile {} "n >= 42 OR name = 'x'" =
      .ok (.join .or (.test ⟨"n", .ge, .number (.ofNat 42)⟩) (.test ⟨"name", .eq, .text "x"⟩)) :=
    Outcome.eq_ok_of_toOption (by decide +kernel)
  have hback : Json.ReadsBack (.ofNat 42) :=
    Literal.reread?_number_eq_self_iff.mp (by decide +kernel)
  have hlarge : Rule.compile {} (String.ofList ("n = 1".toList ++ Number.zeros 309)) =
      .ok (.test ⟨"n", .eq, .number (.infinite false)⟩) := by
    have hdigits : ∀ c ∈ '1' :: Number.zeros 309, c.isDigit = true :=
      List.forall_mem_cons.mpr ⟨rfl, Number.all_isDigit_zeros 309⟩
    have hliteral : (Spelling.digits ('1' :: Number.zeros 309)).literal =
        .number (.infinite false) := by
      have hinfinite : Binary64.ofNat (Number.natOfDigits ('1' :: Number.zeros 309)) =
          .infinite false := by decide +kernel
      rw [Spelling.literal, Spelling.body, if_pos ⟨by simp, List.all_eq_true.mpr hdigits⟩,
        hinfinite]
    have hphrase : (Phrase.mk ['n'] [' '] .eq [' ']
        (.digits ('1' :: Number.zeros 309))).WellFormed :=
      ⟨by decide, by simp [isBlank_space], by simp [isBlank_space], by simp, hdigits⟩
    have hcompile := Rule.compile_source {} hphrase
      fun connective => by cases connective <;> decide
    rw [Phrase.condition, hliteral] at hcompile
    exact hcompile
  refine ⟨⟨hsmall, ?_⟩, hlarge, ?_⟩
  · refine (stored_formula_comes_back_iff (.inl ⟨_, hsmall⟩)).1.mpr ?_
    intro value hmem
    have hvalue : value = .ofNat 42 := by
      simpa only [Formula.numbers, Formula.conditions, List.cons_append, List.nil_append,
        List.filterMap_cons, Literal.number?, List.filterMap_nil, List.mem_singleton] using hmem
    rw [hvalue]
    exact hback
  · exact (stored_formula_comes_back_iff (.inl ⟨_, hlarge⟩)).2.2.1
      ⟨.infinite false, List.mem_cons_self, rfl⟩

end Criteria
