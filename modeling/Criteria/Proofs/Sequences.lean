import Criteria.Proofs.Grammar

/-!
# The order in which lexemes are used

From left to right a formula is a sequence of conditions and connectives (`Formula.inOrder`), and so
are the lexemes of a rule if the parentheses are left out. A reading takes the sequence of the
formula from that of the lexemes: it keeps the order, uses no lexeme twice and adds nothing
(`Run.inOrder`). What a lenient reading drops or replaces is missing from the formula, while a
strict reading uses everything.
-/

namespace Criteria

open Outcome

/-- The conditions and connectives of a formula from left to right. -/
def Formula.inOrder : Formula → List (Condition ⊕ Connective)
  | test condition => [.inl condition]
  | join connective left right => left.inOrder ++ .inr connective :: right.inOrder

/-- What a lexeme can give to a formula: the condition that is read, or the connective. -/
def Lexeme.part? : Lexeme → Option (Condition ⊕ Connective)
  | opening | closing => none
  | connective keyword => some (.inr keyword)
  | condition text => (Condition.ofText text).toOption.map .inl

@[simp] theorem Lexeme.filterMap_part?_opening (lexemes : List Lexeme) :
    (opening :: lexemes).filterMap part? = lexemes.filterMap part? := rfl

@[simp] theorem Lexeme.filterMap_part?_closing (lexemes : List Lexeme) :
    (closing :: lexemes).filterMap part? = lexemes.filterMap part? := rfl

@[simp] theorem Lexeme.filterMap_part?_connective (keyword : Connective) (lexemes : List Lexeme) :
    (connective keyword :: lexemes).filterMap part? = .inr keyword :: lexemes.filterMap part? := rfl

theorem Lexeme.filterMap_part?_condition (text : String) (lexemes : List Lexeme) :
    (condition text :: lexemes).filterMap part? =
      (part? (condition text)).toList ++ lexemes.filterMap part? := by
  rw [List.filterMap_cons]
  cases part? (condition text) <;> rfl

/-! ## Strict readings -/

/-- A derivation uses all its lexemes in order, and all its conditions are read. -/
theorem Derives.inOrder_eq {category : Category} {lexemes : List Lexeme} {formula : Formula}
    {nesting : Nat} (h : Derives category lexemes formula nesting) :
    formula.inOrder = lexemes.filterMap Lexeme.part? ∧
      ∀ text, .condition text ∈ lexemes → ∃ condition, Condition.ofText text = .ok condition := by
  induction h with
  | @condition text condition htext =>
    refine ⟨by simp [Formula.inOrder, Lexeme.part?, htext, Except.toOption], ?_⟩
    intro text' hmem
    obtain rfl := Lexeme.condition.inj (List.mem_singleton.mp hmem)
    exact ⟨condition, htext⟩
  | @group inner formula nesting _ ih =>
    have hinner : (Lexeme.opening :: inner ++ [Lexeme.closing]).filterMap Lexeme.part? =
        inner.filterMap Lexeme.part? := by
      simp
    exact ⟨ih.1.trans hinner.symm, fun text hmem => ih.2 text (by simpa using hmem)⟩
  | operand _ ih => exact ih
  | join connective _ _ ihLeft ihRight =>
    refine ⟨by simp [Formula.inOrder, ihLeft.1, ihRight.1], ?_⟩
    intro text hmem
    rcases List.mem_append.mp hmem with hbefore | hbehind
    · exact ihLeft.2 text hbefore
    · exact ihRight.2 text (by simpa using hbehind)

/-! ## Levels -/

namespace Level

/-- What has been read of a level, from left to right. -/
def inOrder : Level → List (Condition ⊕ Connective)
  | empty => []
  | complete formula _ => formula.inOrder
  | waiting connective left _ => left.inOrder ++ [.inr connective]

/-- What has been read of the levels around a level, from left to right. -/
def inOrderAround : List Level → List (Condition ⊕ Connective)
  | [] => []
  | outer :: around => inOrderAround around ++ outer.inOrder

variable {policy : Policy} {level level' : Level} {connective : Connective}

theorem inOrder_close {group : Formula × Nat} (h : level.close = .ok group) :
    group.1.inOrder = level.inOrder := by
  obtain rfl := eq_of_close h
  rfl

theorem inOrder_addConnective (h : level.addConnective connective = .ok level') :
    level'.inOrder = level.inOrder ++ [.inr connective] := by
  obtain ⟨formula, height, rfl, rfl⟩ := exists_of_addConnective h
  rfl

theorem inOrder_ofJoin {left right : Formula × Nat}
    (h : ofJoin policy connective left right = .ok level) :
    level.inOrder = left.1.inOrder ++ .inr connective :: right.1.inOrder := by
  rw [eq_of_ofJoin h]
  rfl

/-- A group goes behind what has been read. Where it replaces a right side, the connective before
that side stays, and where it is dropped everything stays. -/
theorem inOrder_addGroup {group : Formula × Nat} (h : level.addGroup policy group = .ok level') :
    level'.inOrder.Sublist (level.inOrder ++ group.1.inOrder) := by
  obtain ⟨rfl, rfl⟩ | ⟨connective, left, leftHeight, rfl, hjoin⟩ | rfl |
    ⟨connective, left, right, height, rfl, hjoin⟩ := cases_of_addGroup h
  · exact .refl _
  · rw [inOrder_ofJoin hjoin, inOrder, List.append_assoc]
    exact .refl _
  · exact List.sublist_append_left _ _
  · rw [inOrder_ofJoin hjoin, inOrder, Formula.inOrder, List.append_assoc, List.cons_append]
    exact ((List.sublist_append_right right.inOrder group.1.inOrder).cons_cons _).append_left _

theorem inOrder_addCondition {text : String} (h : level.addCondition policy text = .ok level') :
    level'.inOrder.Sublist (level.inOrder ++ (Lexeme.part? (.condition text)).toList) := by
  obtain ⟨condition, htext, rfl | hadd⟩ := cases_of_addCondition h
  · exact List.sublist_append_left _ _
  · have hpart : (Lexeme.part? (.condition text)).toList = (Formula.test condition).inOrder := by
      simp [Lexeme.part?, Formula.inOrder, htext, Except.toOption]
    rw [hpart]
    exact inOrder_addGroup hadd

end Level

/-! ## Readings -/

/-- The formula of a run is made in order of what has been read and what is still to be read. -/
theorem Run.inOrder {policy : Policy} {depth : Nat} {around : List Level} {level : Level}
    {lexemes : List Lexeme} {result : Formula × Nat × List Lexeme}
    (hrun : Run policy depth around level lexemes result) :
    result.1.inOrder.Sublist
      (Level.inOrderAround around ++ (level.inOrder ++ lexemes.filterMap Lexeme.part?)) := by
  induction hrun with
  | atEnd _ hclose =>
    rw [← Level.inOrder_close hclose, List.filterMap_nil, List.append_nil]
    exact List.sublist_append_right _ _
  | opening _ _ ih =>
    -- what has been read of the level stands before the group from here on
    rwa [Level.inOrderAround, List.append_assoc] at ih
  | lastClosing _ hclose =>
    rw [← Level.inOrder_close hclose]
    exact (List.sublist_append_left _ _).trans (List.sublist_append_right _ _)
  | @closing outer outer' around level rest group result hclose hadd _ ih =>
    have hgroup := Level.inOrder_addGroup hadd
    rw [Level.inOrder_close hclose] at hgroup
    refine ih.trans ?_
    simpa [Level.inOrderAround] using
      (hgroup.append_right (rest.filterMap Lexeme.part?)).append_left (Level.inOrderAround around)
  | connective hadd _ ih =>
    rwa [Level.inOrder_addConnective hadd, List.append_assoc] at ih
  | @condition text around level level' rest result hadd _ ih =>
    refine ih.trans ?_
    rw [Lexeme.filterMap_part?_condition, ← List.append_assoc level.inOrder]
    exact ((Level.inOrder_addCondition hadd).append_right _).append_left _

/-- The conditions and connectives of a formula that is read are some of those of the lexemes, in
their order and each used once at most. A strict reading uses them all. -/
theorem reading_keeps_order (policy : Policy) (lexemes : List Lexeme) (formula : Formula)
    (h : Formula.ofLexemes policy lexemes = .ok formula) :
    formula.inOrder.Sublist (lexemes.filterMap Lexeme.part?) ∧
      (policy.mode = .strict → formula.inOrder = lexemes.filterMap Lexeme.part? ∧
        ∀ text, .condition text ∈ lexemes →
          ∃ condition, Condition.ofText text = .ok condition) := by
  constructor
  · obtain ⟨result, hread, rfl⟩ := map_eq_ok_iff.mp h
    exact (Run.of_readLevel hread).inOrder
  · intro hstrict
    obtain ⟨nesting, hderives, -⟩ := derives_of_ofLexemes (Policy.isStrict_iff.mpr hstrict) h
    exact hderives.inOrder_eq

/-- In `a = 'x' AND b = 'y' (c = 'z')` a lenient reading lets the group take the place of the
condition before it. In `(a = 'x' AND b = 'y') OR c = 'z'` a strict reading uses everything. -/
theorem order_of_replaced_side :
    Formula.ofLexemes {} [.condition "a = 'x'", .connective .and, .condition "b = 'y'", .opening,
        .condition "c = 'z'", .closing] =
      .ok (.join .and (.test ⟨"a", .eq, .text "x"⟩) (.test ⟨"c", .eq, .text "z"⟩)) ∧
    List.Sublist (α := Condition ⊕ Connective)
      [.inl ⟨"a", .eq, .text "x"⟩, .inr .and, .inl ⟨"c", .eq, .text "z"⟩]
      [.inl ⟨"a", .eq, .text "x"⟩, .inr .and, .inl ⟨"b", .eq, .text "y"⟩,
        .inl ⟨"c", .eq, .text "z"⟩] ∧
    Formula.ofLexemes ⟨.strict, 1, 3⟩ [.opening, .condition "a = 'x'", .connective .and,
        .condition "b = 'y'", .closing, .connective .or, .condition "c = 'z'"] =
      .ok (.join .or (.join .and (.test ⟨"a", .eq, .text "x"⟩) (.test ⟨"b", .eq, .text "y"⟩))
        (.test ⟨"c", .eq, .text "z"⟩)) ∧
    (Formula.join .or (.join .and (.test ⟨"a", .eq, .text "x"⟩) (.test ⟨"b", .eq, .text "y"⟩))
        (.test ⟨"c", .eq, .text "z"⟩)).inOrder =
      [.inl ⟨"a", .eq, .text "x"⟩, .inr .and, .inl ⟨"b", .eq, .text "y"⟩, .inr .or,
        .inl ⟨"c", .eq, .text "z"⟩] := by
  have hlenient : Formula.ofLexemes {} [.condition "a = 'x'", .connective .and,
      .condition "b = 'y'", .opening, .condition "c = 'z'", .closing] =
        .ok (.join .and (.test ⟨"a", .eq, .text "x"⟩) (.test ⟨"c", .eq, .text "z"⟩)) := rfl
  have hstrict : Formula.ofLexemes ⟨.strict, 1, 3⟩ [.opening, .condition "a = 'x'",
      .connective .and, .condition "b = 'y'", .closing, .connective .or, .condition "c = 'z'"] =
        .ok (.join .or (.join .and (.test ⟨"a", .eq, .text "x"⟩) (.test ⟨"b", .eq, .text "y"⟩))
          (.test ⟨"c", .eq, .text "z"⟩)) := rfl
  exact ⟨hlenient, (reading_keeps_order {} _ _ hlenient).1, hstrict,
    ((reading_keeps_order ⟨.strict, 1, 3⟩ _ _ hstrict).2 rfl).1⟩

end Criteria
