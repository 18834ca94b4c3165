import Criteria.Proofs.Strictness

/-!
# Reading group by group

Lexemes are read one by one, with a stack for the levels that are open. Here the same is said by
recursion over groups: parentheses divide the lexemes into items, a group being an item that holds
items, and a level is folded over its items from the left, with a group folded first and then put
where a condition would be put. Reading the lexemes of items is folding the items
(`Formula.ofLexemes_lexemesOf`), with the same fault where there is one. A closing parenthesis that
closes nothing ends a lenient reading, and a strict one does not succeed where there is one.
-/

namespace Criteria

open Outcome

/-! ## Items -/

/-- An item of a level: a condition, a connective, or items between parentheses. -/
inductive Item where
  | condition (text : String)
  | connective (connective : Connective)
  | group (items : List Item)

mutual

/-- The lexemes of an item. -/
def Item.lexemes : Item → List Lexeme
  | .condition text => [.condition text]
  | .connective keyword => [.connective keyword]
  | .group items => .opening :: (Item.lexemesOf items ++ [.closing])

/-- The lexemes of items in a row. -/
def Item.lexemesOf : List Item → List Lexeme
  | [] => []
  | item :: items => item.lexemes ++ Item.lexemesOf items

end

/-! ## Drafts -/

/-- What the items of a level have made so far: nothing, a formula, or a formula whose connective is
open to the right. -/
inductive Draft where
  | empty
  | complete (formula : Formula)
  | opened (left : Formula) (connective : Connective)

namespace Draft

/-- The formula of a level without further items. -/
def finish : Draft → Except Fault Formula
  | empty => .error .emptyExpression
  | complete formula => .ok formula
  | opened .. => .error .unexpectedEnd

/-- The draft of two formulas that are joined, if the join is not too high. -/
def ofJoin (policy : Policy) (connective : Connective) (left right : Formula) :
    Except Fault Draft :=
  if (Formula.join connective left right).height ≤ policy.maxHeight then
    .ok (complete (.join connective left right))
  else .error (.tooDeep policy.maxHeight)

/-- A connective opens a complete draft to the right. -/
def connect (connective : Connective) : Draft → Except Fault Draft
  | complete formula => .ok (opened formula connective)
  | empty | opened .. => .error (.danglingConnective connective)

/-- A formula fills an empty draft or an open right side. What becomes of it in a complete draft is
said by `surplus`, given the formula that is there. -/
def fill (policy : Policy) (formula : Formula) (surplus : Formula → Except Fault Draft) :
    Draft → Except Fault Draft
  | empty => .ok (complete formula)
  | complete present => surplus present
  | opened left connective => ofJoin policy connective left formula

/-- A condition in a complete draft: a lenient reading drops it. -/
def surplusCondition (policy : Policy) (text : String) (present : Formula) : Except Fault Draft :=
  if policy.mode = .strict then .error (.unexpectedText text) else .ok (complete present)

/-- A group in a complete draft: a lenient reading drops it if there is a condition alone, and else
puts it in the place of the right side. -/
def surplusGroup (policy : Policy) (group present : Formula) : Except Fault Draft :=
  if policy.mode = .strict then .error (.unexpectedText "(")
  else
    match present with
    | .test _ => .ok (complete present)
    | .join connective left _ => ofJoin policy connective left group

end Draft

mutual

/-- The draft of a level at a depth after an item. -/
def Item.extend (policy : Policy) (depth : Nat) (draft : Draft) : Item → Except Fault Draft
  | .condition text => do
    let condition ← Condition.ofText text
    draft.fill policy (.test condition) (Draft.surplusCondition policy text)
  | .connective keyword => draft.connect keyword
  | .group items =>
    if policy.maxNesting ≤ depth then .error (.tooDeep policy.maxNesting)
    else do
      let inside ← Item.extendAll policy (depth + 1) .empty items
      let group ← inside.finish
      draft.fill policy group (Draft.surplusGroup policy group)

/-- The draft after items from left to right. -/
def Item.extendAll (policy : Policy) (depth : Nat) (draft : Draft) :
    List Item → Except Fault Draft
  | [] => .ok draft
  | item :: items => do
    let next ← item.extend policy depth draft
    Item.extendAll policy depth next items

end

/-- The formula of the items of a rule. -/
def Formula.ofItems (policy : Policy) (items : List Item) : Except Fault Formula := do
  let draft ← Item.extendAll policy 0 .empty items
  draft.finish

/-! ## Drafts and levels -/

namespace Draft

/-- The level that holds what a draft holds. -/
def level : Draft → Level
  | empty => .empty
  | complete formula => .complete formula formula.height
  | opened left connective => .waiting connective left left.height

variable (policy : Policy) (draft : Draft)

theorem close_level :
    draft.level.close = draft.finish.map fun formula => (formula, formula.height) := by
  cases draft <;> rfl

theorem addConnective_level (connective : Connective) :
    draft.level.addConnective connective = (draft.connect connective).map level := by
  cases draft <;> rfl

theorem ofJoin_level (connective : Connective) (left right : Formula) :
    Level.ofJoin policy connective (left, left.height) (right, right.height) =
      (ofJoin policy connective left right).map level := by
  rw [Level.ofJoin_eq, ofJoin]
  split <;> rfl

theorem addCondition_level (text : String) :
    draft.level.addCondition policy text =
      Condition.ofText text >>= fun condition =>
        (draft.fill policy (.test condition) (surplusCondition policy text)).map level := by
  rw [Level.addCondition]
  refine congrArg (Condition.ofText text >>= ·) (funext fun condition => ?_)
  cases draft with
  | empty => rfl
  | opened left connective => exact ofJoin_level policy connective left (.test condition)
  | complete present =>
    simp only [level, fill, surplusCondition, Policy.isStrict_iff]
    split <;> rfl

theorem addGroup_level (group : Formula) :
    draft.level.addGroup policy (group, group.height) =
      (draft.fill policy group (surplusGroup policy group)).map level := by
  cases draft with
  | empty => rfl
  | opened left connective => exact ofJoin_level policy connective left group
  | complete present =>
    simp only [level, fill, surplusGroup, Level.addGroup, Policy.isStrict_iff]
    split
    · rfl
    · cases present with
      | test condition => rfl
      | join connective left right => exact ofJoin_level policy connective left group

end Draft

/-! ## Reading the lexemes of items -/

mutual

/-- Reading the lexemes of an item extends the draft by the item, whatever follows and whatever
levels are open around. -/
theorem readLevel_lexemes (policy : Policy) (depth : Nat) :
    ∀ (item : Item) (around : List Level) (draft : Draft) (rest : List Lexeme),
      readLevel policy depth around draft.level (item.lexemes ++ rest) =
        item.extend policy (depth + around.length) draft >>= fun draft =>
          readLevel policy depth around draft.level rest
  | .condition text, around, draft, rest => by
    rw [Item.lexemes, List.singleton_append, readLevel_condition, Draft.addCondition_level,
      Item.extend, bind_assoc, bind_assoc]
    simp only [bind_of_map]
  | .connective keyword, around, draft, rest => by
    rw [Item.lexemes, List.singleton_append, readLevel_connective, Draft.addConnective_level,
      Item.extend, bind_of_map]
  | .group items, around, draft, rest => by
    rw [Item.lexemes, List.cons_append, readLevel_opening, Item.extend]
    split
    · rfl
    · -- the items of the group start from an empty draft, with one more level around them
      have hitems := readLevel_lexemesOf policy depth items (draft.level :: around) .empty
        (.closing :: rest)
      rw [List.append_assoc, List.singleton_append]
      refine hitems.trans ?_
      rw [List.length_cons, ← Nat.add_assoc, bind_assoc]
      refine congrArg (_ >>= ·) (funext fun inside => ?_)
      rw [readLevel_closing, Draft.close_level, bind_of_map, bind_assoc]
      simp only [Draft.addGroup_level, bind_of_map]

/-- The same for items in a row. -/
theorem readLevel_lexemesOf (policy : Policy) (depth : Nat) :
    ∀ (items : List Item) (around : List Level) (draft : Draft) (rest : List Lexeme),
      readLevel policy depth around draft.level (Item.lexemesOf items ++ rest) =
        Item.extendAll policy (depth + around.length) draft items >>= fun draft =>
          readLevel policy depth around draft.level rest
  | [], around, draft, rest => rfl
  | item :: items, around, draft, rest => by
    rw [Item.lexemesOf, List.append_assoc, readLevel_lexemes policy depth item, Item.extendAll,
      bind_assoc]
    refine congrArg (_ >>= ·) (funext fun next => ?_)
    exact readLevel_lexemesOf policy depth items around next rest

end

/-- The formula of the lexemes of items is that of the items. -/
theorem Formula.ofLexemes_lexemesOf (policy : Policy) (items : List Item) :
    ofLexemes policy (Item.lexemesOf items) = ofItems policy items := by
  have hread := readLevel_lexemesOf policy 0 items [] .empty []
  rw [List.append_nil] at hread
  have hlexemes : ofLexemes policy (Item.lexemesOf items) =
      (readLevel policy 0 [] Draft.empty.level (Item.lexemesOf items)).map (·.1) := rfl
  rw [hlexemes, hread, map_of_bind, ofItems]
  refine congrArg (_ >>= ·) (funext fun draft => ?_)
  rw [readLevel_outermost_nil, Draft.close_level]
  cases draft <;> rfl

/-! ## Closing parentheses that close nothing -/

/-- A lenient reading ends at a closing parenthesis that closes nothing. -/
theorem readLevel_leniently_stray {policy : Policy} (hlenient : policy.mode = .lenient)
    (behind before : List Lexeme) :
    ∀ (around : List Level) (level : Level),
      Lexeme.closesOnlyOpen around.length before = true →
      Lexeme.closesOnlyOpen around.length (before ++ [.closing]) = false →
      (readLevel policy 0 around level (before ++ .closing :: behind)).map (·.1) =
        (readLevel policy 0 around level before).map (·.1) := by
  have hmode : policy.isStrict = false := by simp [Policy.isStrict, hlenient]
  induction before with
  | nil =>
    intro around level _ hstray
    cases around with
    | nil =>
      rw [List.nil_append, readLevel_last_closing, readLevel_outermost_nil,
        if_neg (by simp [hmode])]
      cases level.close <;> rfl
    | cons outer around => simp [Lexeme.closesOnlyOpen] at hstray
  | cons lexeme before ih =>
    intro around level hclosed hstray
    cases lexeme with
    | opening =>
      rw [List.cons_append, readLevel_opening, readLevel_opening]
      split
      · rfl
      · exact ih (level :: around) .empty hclosed hstray
    | closing =>
      cases around with
      | nil => simp [Lexeme.closesOnlyOpen] at hclosed
      | cons outer around =>
        rw [List.cons_append, readLevel_closing, readLevel_closing]
        simp only [map_of_bind]
        refine congrArg (_ >>= ·) (funext fun group => congrArg (_ >>= ·) (funext fun level => ?_))
        exact ih around level hclosed hstray
    | connective connective =>
      rw [List.cons_append, readLevel_connective, readLevel_connective]
      simp only [map_of_bind]
      refine congrArg (_ >>= ·) (funext fun level => ?_)
      exact ih around level hclosed hstray
    | condition text =>
      rw [List.cons_append, readLevel_condition, readLevel_condition]
      simp only [map_of_bind]
      refine congrArg (_ >>= ·) (funext fun level => ?_)
      exact ih around level hclosed hstray

/-- Reading the lexemes of items is folding the items, group by group. Whatever the lexemes, a
lenient reading ends at the first closing parenthesis that closes nothing, and a strict one does not
succeed if there is one. -/
theorem reading_is_folding (policy : Policy) :
    (∀ items, Formula.ofLexemes policy (Item.lexemesOf items) = Formula.ofItems policy items) ∧
    (policy.mode = .lenient → ∀ before behind, Lexeme.closesOnlyOpen 0 before = true →
      Lexeme.closesOnlyOpen 0 (before ++ [.closing]) = false →
      Formula.ofLexemes policy (before ++ .closing :: behind) =
        Formula.ofLexemes policy before) ∧
    (policy.mode = .strict → ∀ lexemes, Lexeme.closesOnlyOpen 0 lexemes = false →
      ∀ formula, Formula.ofLexemes policy lexemes ≠ .ok formula) := by
  refine ⟨Formula.ofLexemes_lexemesOf policy, ?_, ?_⟩
  · intro hlenient before behind hclosed hstray
    exact readLevel_leniently_stray hlenient behind before [] .empty hclosed hstray
  · intro hstrict lexemes hstray formula hread
    obtain ⟨nesting, hderives, -⟩ :=
      derives_of_ofLexemes (Policy.isStrict_iff.mpr hstrict) hread
    have hclosed := hderives.closesOnlyOpen_append 0 []
    rw [List.append_nil, hstray] at hclosed
    simp [Lexeme.closesOnlyOpen] at hclosed

/-- The group takes the place of the condition before it. -/
example : Formula.ofItems {} [.condition "a = 'x'", .connective .and, .condition "b = 'y'",
    .group [.condition "c = 'z'"]] =
      .ok (.join .and (.test ⟨"a", .eq, .text "x"⟩) (.test ⟨"c", .eq, .text "z"⟩)) := by
  cbv

end Criteria
