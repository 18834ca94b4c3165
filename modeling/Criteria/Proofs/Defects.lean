import Criteria.Proofs.Documents
import Criteria.Proofs.Outcome

/-!
# The first defect of a stored formula

The nodes that make up a stored formula are visited from the root on, a node before the nodes below
it and the left side before the right, without the sides of tests. `StoredNode.defect?` says what is
wrong with one of them by itself, given its level. Making the formula comes down to looking for the
first defect on this way: if there is one it is reported, and otherwise there is a formula, whose
nodes are those that were visited, in canonical form.
-/

namespace Criteria

open Outcome

theorem Relation.symbol_of_ofSymbol? {text : String} {relation : Relation}
    (h : ofSymbol? text = some relation) : relation.symbol = text := by
  simpa using List.find?_some h

theorem Connective.word_of_ofWord? {text : String} {connective : Connective}
    (h : ofWord? text = some connective) : connective.word = text := by
  simpa using List.find?_some h

namespace StoredNode

/-! ## Visits -/

/-- The nodes that are visited, each with its level; the level of the first is given. -/
def visits (level : Nat) : StoredNode → List (Nat × StoredNode)
  | node kind left right content =>
    let below :=
      if kind = testKind then []
      else
        (match left with
          | some left => left.visits (level + 1)
          | none => []) ++
        match right with
        | some right => right.visits (level + 1)
        | none => []
    (level, node kind left right content) :: below

theorem visits_test (level : Nat) (left right : Option StoredNode)
    (content : Option StoredContent) :
    (node testKind left right content).visits level =
      [(level, node testKind left right content)] := by
  rw [visits.eq_def]
  rfl

theorem visits_join (level : Nat) (left right : StoredNode) (content : Option StoredContent) :
    (node joinKind (some left) (some right) content).visits level =
      (level, node joinKind (some left) (some right) content) ::
        (left.visits (level + 1) ++ right.visits (level + 1)) := by
  rw [visits.eq_def]
  rfl

theorem visits_eq_cons (level : Nat) (node : StoredNode) :
    ∃ below, node.visits level = (level, node) :: below := by
  cases node
  rw [visits.eq_def]
  exact ⟨_, rfl⟩

/-! ## Defects of one node -/

/-- What is wrong with the content of a test. -/
def testDefect? (content : StoredContent) : Option Fault :=
  if content.field = "" then some (.invalidInput .emptyField)
  else if Relation.ofSymbol? content.operator = none then some (.unknownOperator content.operator)
  else none

/-- What is wrong with the content of a join, or with its having sides. -/
def joinDefect? (content : StoredContent) (left right : Option StoredNode) : Option Fault :=
  match Connective.ofWord? content.field with
  | none => some (.unknownOperator content.field)
  | some connective =>
    if left.isNone then some (.invalidInput (.missingLeft connective))
    else if right.isNone then some (.invalidInput (.missingRight connective))
    else none

/-- What is wrong with a node on a level: the first of the level, the content, the kind, and what
the kind asks for. -/
def defect? (level : Nat) : StoredNode → Option Fault
  | node kind left right content =>
    if maxLevels < level then some (.tooDeep maxLevels)
    else
      match content with
      | none => some (.invalidInput (.missingValue kind))
      | some content =>
        if kind = testKind then testDefect? content
        else if kind = joinKind then joinDefect? content left right
        else some (.invalidInput (.unknownKind kind))

theorem defect?_of_lt {level : Nat} (h : maxLevels < level) (node : StoredNode) :
    node.defect? level = some (.tooDeep maxLevels) := by
  cases node
  exact if_pos h

theorem defect?_of_le {level : Nat} (h : level ≤ maxLevels) (kind : String)
    (left right : Option StoredNode) (content : Option StoredContent) :
    (node kind left right content).defect? level =
      match content with
      | none => some (.invalidInput (.missingValue kind))
      | some content =>
        if kind = testKind then testDefect? content
        else if kind = joinKind then joinDefect? content left right
        else some (.invalidInput (.unknownKind kind)) :=
  if_neg (Nat.not_lt.mpr h)

theorem testDefect?_eq_none {content : StoredContent} (h : testDefect? content = none) :
    ∃ condition, conditionOf content = .ok condition := by
  rw [testDefect?] at h
  split at h
  · simp at h
  · next hfield =>
    split at h
    · simp at h
    · next hrelation =>
      obtain ⟨relation, hrelation⟩ := Option.ne_none_iff_exists'.mp hrelation
      exact ⟨_, by rw [conditionOf, if_neg hfield, hrelation]⟩

theorem testDefect?_eq_some {content : StoredContent} {fault : Fault}
    (h : testDefect? content = some fault) : conditionOf content = .error fault := by
  rw [testDefect?] at h
  rw [conditionOf]
  split at h
  · next hfield =>
    obtain rfl := Option.some.inj h
    rw [if_pos hfield]
  · next hfield =>
    split at h
    · next hrelation =>
      obtain rfl := Option.some.inj h
      rw [if_neg hfield, hrelation]
    · simp at h

theorem joinDefect?_eq_none {content : StoredContent} {left right : Option StoredNode}
    (h : joinDefect? content left right = none) :
    ∃ (connective : Connective) (left' right' : StoredNode),
      content.field = connective.word ∧ left = some left' ∧ right = some right' := by
  rw [joinDefect?] at h
  split at h
  · simp at h
  · next connective hword =>
    cases left with
    | none => simp at h
    | some left =>
      cases right with
      | none => simp at h
      | some right =>
        exact ⟨connective, left, right, (Connective.word_of_ofWord? hword).symm, rfl, rfl⟩

/-- A node without a defect is a test that holds a condition, or a join with a connective and both
sides. -/
theorem cases_of_defect?_eq_none {level : Nat} {node : StoredNode} (h : node.defect? level = none) :
    level ≤ maxLevels ∧
      ((∃ left right content condition, node = .node testKind left right (some content) ∧
          conditionOf content = .ok condition) ∨
        ∃ (connective : Connective) (left right : StoredNode) (operator : String)
          (value : Literal), node = .node joinKind (some left) (some right)
            (some ⟨connective.word, operator, value⟩)) := by
  have hlevel : level ≤ maxLevels := by
    refine Nat.not_lt.mp fun hlt => ?_
    rw [defect?_of_lt hlt] at h
    simp at h
  refine ⟨hlevel, ?_⟩
  obtain ⟨kind, left, right, content⟩ := node
  rw [defect?_of_le hlevel] at h
  cases content with
  | none => simp at h
  | some content =>
    simp only at h
    split at h
    · next hkind =>
      obtain ⟨condition, hcondition⟩ := testDefect?_eq_none h
      exact .inl ⟨left, right, content, condition, by rw [hkind], hcondition⟩
    · split at h
      · next hkind =>
        obtain ⟨connective, left, right, hfield, rfl, rfl⟩ := joinDefect?_eq_none h
        obtain ⟨field, operator, value⟩ := content
        obtain rfl : field = connective.word := hfield
        exact .inr ⟨connective, left, right, operator, value, by rw [hkind]⟩
      · simp at h

/-! ## Making the formula -/

theorem toFormulaWithin_test (levels : Nat) (left right : Option StoredNode)
    (content : StoredContent) :
    toFormulaWithin (levels + 1) (node testKind left right (some content)) =
      (conditionOf content).map .test := by
  rw [toFormulaWithin.eq_def]
  rfl

theorem toFormulaWithin_join (levels : Nat) (connective : Connective) (left right : StoredNode)
    (operator : String) (value : Literal) :
    toFormulaWithin (levels + 1)
        (node joinKind (some left) (some right) (some ⟨connective.word, operator, value⟩)) =
      toFormulaWithin levels left >>= fun left =>
        toFormulaWithin levels right >>= fun right => .ok (.join connective left right) := by
  rw [toFormulaWithin.eq_def]
  simp only [Connective.ofWord?_word]
  rfl

/-- A node that has a defect by itself makes no formula, whatever is below it. -/
theorem toFormulaWithin_of_defect? {levels level : Nat} (hlevel : level + levels = maxLevels + 1)
    {node : StoredNode} {fault : Fault} (h : node.defect? level = some fault) :
    toFormulaWithin levels node = .error fault := by
  cases levels with
  | zero =>
    rw [defect?_of_lt (by omega)] at h
    rw [toFormulaWithin.eq_def, ← Option.some.inj h]
  | succ levels =>
    obtain ⟨kind, left, right, content⟩ := node
    rw [defect?_of_le (by omega)] at h
    rw [toFormulaWithin.eq_def]
    cases content with
    | none => rw [← Option.some.inj h]
    | some content =>
      simp only at h ⊢
      split at h
      · next hkind =>
        rw [if_pos hkind, testDefect?_eq_some h]
        rfl
      · next hkind =>
        rw [if_neg hkind]
        split at h
        · next hjoin =>
          rw [if_pos hjoin]
          rw [joinDefect?] at h
          split at h
          · next hword => rw [hword, ← Option.some.inj h]
          · next connective hword =>
            rw [hword]
            cases left with
            | none => rw [← Option.some.inj h]
            | some left =>
              cases right with
              | none => rw [← Option.some.inj h]
              | some right => simp at h
        · next hjoin => rw [if_neg hjoin, ← Option.some.inj h]

/-! ## The first defect -/

/-- The first defect of the nodes that are visited. -/
def firstDefect? (level : Nat) (node : StoredNode) : Option Fault :=
  (node.visits level).findSome? fun visit => visit.2.defect? visit.1

theorem firstDefect?_of_defect? {level : Nat} {node : StoredNode} {fault : Fault}
    (h : node.defect? level = some fault) : node.firstDefect? level = some fault := by
  obtain ⟨below, hvisits⟩ := node.visits_eq_cons level
  rw [firstDefect?, hvisits, List.findSome?_cons, h]

theorem firstDefect?_test {level : Nat} {left right : Option StoredNode}
    {content : Option StoredContent} (h : (node testKind left right content).defect? level = none) :
    (node testKind left right content).firstDefect? level = none := by
  rw [firstDefect?, visits_test, List.findSome?_cons, h]
  rfl

/-- A join that is in order by itself has the first defect of its left side, else of its right. -/
theorem firstDefect?_join {level : Nat} {left right : StoredNode} {content : Option StoredContent}
    (h : (node joinKind (some left) (some right) content).defect? level = none) :
    (node joinKind (some left) (some right) content).firstDefect? level =
      (left.firstDefect? (level + 1)).or (right.firstDefect? (level + 1)) := by
  rw [firstDefect?, visits_join, List.findSome?_cons, h, List.findSome?_append]
  rfl

/-- Nodes without a defect make a formula. -/
theorem exists_of_firstDefect?_eq_none {levels level : Nat} {node : StoredNode}
    (hlevel : level + levels = maxLevels + 1) (h : node.firstDefect? level = none) :
    ∃ formula, toFormulaWithin levels node = .ok formula := by
  -- by induction on the levels that are left, which come down as the level goes up
  induction levels generalizing level node with
  | zero =>
    rw [firstDefect?_of_defect? (defect?_of_lt (by omega) node)] at h
    simp at h
  | succ levels ih =>
    cases hdefect : node.defect? level with
    | some fault =>
      rw [firstDefect?_of_defect? hdefect] at h
      simp at h
    | none =>
      obtain ⟨-, ⟨left, right, content, condition, rfl, hcondition⟩ |
        ⟨connective, left, right, operator, value, rfl⟩⟩ := cases_of_defect?_eq_none hdefect
      · rw [toFormulaWithin_test, hcondition]
        exact ⟨.test condition, rfl⟩
      · rw [firstDefect?_join hdefect, Option.or_eq_none_iff] at h
        have hbelow : level + 1 + levels = maxLevels + 1 := by omega
        obtain ⟨left', hleft⟩ := ih hbelow h.1
        obtain ⟨right', hright⟩ := ih hbelow h.2
        rw [toFormulaWithin_join, hleft, hright]
        exact ⟨.join connective left' right', rfl⟩

/-- The first defect is what is reported. -/
theorem toFormulaWithin_of_firstDefect? {levels level : Nat} {node : StoredNode} {fault : Fault}
    (hlevel : level + levels = maxLevels + 1) (h : node.firstDefect? level = some fault) :
    toFormulaWithin levels node = .error fault := by
  induction levels generalizing level node with
  | zero =>
    have hdefect := defect?_of_lt (show maxLevels < level by omega) node
    rw [firstDefect?_of_defect? hdefect] at h
    rw [toFormulaWithin_of_defect? hlevel hdefect, Option.some.inj h]
  | succ levels ih =>
    cases hdefect : node.defect? level with
    | some fault' =>
      rw [firstDefect?_of_defect? hdefect] at h
      rw [toFormulaWithin_of_defect? hlevel hdefect, Option.some.inj h]
    | none =>
      obtain ⟨-, ⟨left, right, content, condition, rfl, -⟩ |
        ⟨connective, left, right, operator, value, rfl⟩⟩ := cases_of_defect?_eq_none hdefect
      · rw [firstDefect?_test hdefect] at h
        simp at h
      · rw [firstDefect?_join hdefect, Option.or_eq_some_iff] at h
        have hbelow : level + 1 + levels = maxLevels + 1 := by omega
        rw [toFormulaWithin_join]
        -- the right side is reached only where the left side makes a formula
        rcases h with hleft | ⟨hleft, hright⟩
        · rw [ih hbelow hleft]
          rfl
        · obtain ⟨left', hleft'⟩ := exists_of_firstDefect?_eq_none hbelow hleft
          rw [hleft', ok_bind, ih hbelow hright]
          rfl

/-! ## Canonical form -/

/-- The nodes without what does not count: the sides of tests, and beside the connective what the
content of a join holds. -/
def canonical : StoredNode → StoredNode
  | node kind left right content =>
    if kind = testKind then node kind none none content
    else if kind = joinKind then
      let left :=
        match left with
        | some left => some left.canonical
        | none => none
      let right :=
        match right with
        | some right => some right.canonical
        | none => none
      node kind left right (content.map fun content => ⟨content.field, "", .text ""⟩)
    else node kind left right content

theorem canonical_test (left right : Option StoredNode) (content : Option StoredContent) :
    (node testKind left right content).canonical = node testKind none none content := by
  rw [canonical.eq_def]
  rfl

theorem canonical_join (left right : StoredNode) (content : StoredContent) :
    (node joinKind (some left) (some right) (some content)).canonical =
      node joinKind (some left.canonical) (some right.canonical)
        (some ⟨content.field, "", .text ""⟩) := by
  rw [canonical.eq_def]
  rfl

/-- A condition that is held names its field, and its parts are the content. -/
theorem of_conditionOf_eq_ok {content : StoredContent} {condition : Condition}
    (h : conditionOf content = .ok condition) :
    condition.field ≠ "" ∧
      StoredContent.mk condition.field condition.relation.symbol condition.value = content := by
  rw [conditionOf] at h
  split at h
  · simp at h
  · next hfield =>
    split at h
    · next relation hrelation =>
      obtain rfl := Except.ok.inj h
      exact ⟨hfield, by rw [Relation.symbol_of_ofSymbol? hrelation]⟩
    · simp at h

/-- A formula that has been made has the nodes in canonical form, no more levels than were allowed,
and names all its fields. -/
theorem shape_of_toFormulaWithin {levels : Nat} {node : StoredNode} {formula : Formula}
    (hlevels : levels ≤ maxLevels) (h : toFormulaWithin levels node = .ok formula) :
    ofFormula formula = node.canonical ∧ formula.height ≤ levels ∧
      "" ∉ formula.conditions.map (·.field) := by
  induction levels generalizing node formula with
  | zero => simp [toFormulaWithin.eq_def] at h
  | succ levels ih =>
    have hlevel : maxLevels - levels + (levels + 1) = maxLevels + 1 := by omega
    have hdefect : node.defect? (maxLevels - levels) = none := by
      cases hdefect : node.defect? (maxLevels - levels) with
      | none => rfl
      | some fault =>
        rw [toFormulaWithin_of_defect? hlevel hdefect] at h
        simp at h
    obtain ⟨-, ⟨left, right, content, condition, rfl, hcondition⟩ |
      ⟨connective, left, right, operator, value, rfl⟩⟩ := cases_of_defect?_eq_none hdefect
    · rw [toFormulaWithin_test, hcondition] at h
      obtain rfl := Except.ok.inj h
      obtain ⟨hfield, hcontent⟩ := of_conditionOf_eq_ok hcondition
      refine ⟨?_, Nat.le_add_left 1 levels, ?_⟩
      · rw [canonical_test, ofFormula, hcontent]
      · simpa [Formula.conditions] using hfield.symm
    · rw [toFormulaWithin_join] at h
      obtain ⟨leftFormula, hleft, h⟩ := bind_eq_ok_iff.mp h
      obtain ⟨rightFormula, hright, h⟩ := bind_eq_ok_iff.mp h
      obtain rfl := Except.ok.inj h
      obtain ⟨hleftNodes, hleftHeight, hleftFields⟩ := ih (by omega) hleft
      obtain ⟨hrightNodes, hrightHeight, hrightFields⟩ := ih (by omega) hright
      refine ⟨?_, ?_, ?_⟩
      · rw [canonical_join, ofFormula, hleftNodes, hrightNodes]
      · rw [Formula.height]
        omega
      · rw [Formula.conditions, List.map_append, List.mem_append, not_or]
        exact ⟨hleftFields, hrightFields⟩

end StoredNode

/-- A stored formula is made iff none of the nodes that are visited has a defect, and otherwise the
first defect is reported. The formula that is made is that of the canonical form of its nodes, which
make it again. -/
theorem first_defect_is_reported (stored : StoredNode) :
    (∀ fault, stored.toFormula = .error fault ↔
      (stored.visits 1).findSome? (fun visit => visit.2.defect? visit.1) = some fault) ∧
    ((∃ formula, stored.toFormula = .ok formula) ↔
      ∀ visit ∈ stored.visits 1, visit.2.defect? visit.1 = none) ∧
    ∀ formula, stored.toFormula = .ok formula →
      StoredNode.ofFormula formula = stored.canonical ∧
        stored.canonical.toFormula = .ok formula := by
  have hroot : 1 + StoredNode.maxLevels = StoredNode.maxLevels + 1 := Nat.add_comm _ _
  have hnone : stored.firstDefect? 1 = none ↔
      ∀ visit ∈ stored.visits 1, visit.2.defect? visit.1 = none := List.findSome?_eq_none_iff
  have herror : ∀ fault, stored.firstDefect? 1 = some fault → stored.toFormula = .error fault :=
    fun fault h => StoredNode.toFormulaWithin_of_firstDefect? hroot h
  have hok : stored.firstDefect? 1 = none → ∃ formula, stored.toFormula = .ok formula :=
    StoredNode.exists_of_firstDefect?_eq_none hroot
  refine ⟨fun fault => ⟨fun h => ?_, herror fault⟩, ⟨fun h => ?_, fun h => hok (hnone.mpr h)⟩, ?_⟩
  · show stored.firstDefect? 1 = some fault
    cases hfirst : stored.firstDefect? 1 with
    | none =>
      obtain ⟨formula, hformula⟩ := hok hfirst
      exact absurd (hformula.symm.trans h) (by simp)
    | some fault' => rw [Except.error.inj ((herror fault' hfirst).symm.trans h)]
  · obtain ⟨formula, hformula⟩ := h
    refine hnone.mp ?_
    cases hfirst : stored.firstDefect? 1 with
    | none => rfl
    | some fault => exact absurd (hformula.symm.trans (herror fault hfirst)) (by simp)
  · intro formula h
    obtain ⟨hnodes, hheight, hfields⟩ :=
      StoredNode.shape_of_toFormulaWithin (Nat.le_refl _) h
    refine ⟨hnodes, ?_⟩
    rw [← hnodes]
    exact Formula.toFormulaWithin_ofFormula hheight hfields

/-- A node of an unknown kind below a test does not count, and neither does what a join holds beside
its connective; an unknown relation on the right does. -/
theorem defect_below_test_is_not_reported :
    let test (relation : String) : StoredNode :=
      .node "operand" (some (.node "leaf" none none none)) none (some ⟨"a", relation, .text "x"⟩)
    let join (relation : String) : StoredNode :=
      .node "operator" (some (test "=")) (some (test relation)) (some ⟨"OR", "?", .text "y"⟩)
    (join "~=").toFormula = .error (.unknownOperator "~=") ∧
    (join "!=").toFormula =
        .ok (.join .or (.test ⟨"a", .eq, .text "x"⟩) (.test ⟨"a", .ne, .text "x"⟩)) ∧
      (join "!=").canonical.toFormula =
        .ok (.join .or (.test ⟨"a", .eq, .text "x"⟩) (.test ⟨"a", .ne, .text "x"⟩)) := by
  intro test join
  have hmade : (join "!=").toFormula =
      .ok (.join .or (.test ⟨"a", .eq, .text "x"⟩) (.test ⟨"a", .ne, .text "x"⟩)) := by rfl
  refine ⟨?_, hmade, ?_⟩
  · exact ((first_defect_is_reported (join "~=")).1 _).mpr (by rfl)
  · exact ((first_defect_is_reported (join "!=")).2.2 _ hmade).2

end Criteria
