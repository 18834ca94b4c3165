import Criteria.Proofs.JsonTexts
import Criteria.Stored.Document

/-!
# Documents are read back

The text of the document of a node is read as the node, with the literals that the reader makes of
theirs (`StoredNode.ofText?_toText`). A text comes back as it is; a number does if the JSON texts of
numbers bring that number back, and an infinite one is lost, and with it the whole document. The
text of a document may not nest deeper than documents may.
-/

namespace Criteria

open Number (Binary64)

/-! ## Parts of objects -/

namespace Json

theorem members?_ofMembers (members : List (String × Json)) :
    (ofMembers members).members? = some members := by
  rw [ofMembers, members?]
  induction members with
  | nil => rfl
  | cons member members ih =>
    rw [List.map_cons, List.mapM_cons, ih]
    rfl

theorem parts?_ofMembers (names : List String) (members : List (String × Json)) :
    (ofMembers members).parts? names = names.mapM (uniqueMember? members) := by
  show ((ofMembers members).members?.bind fun members => names.mapM (uniqueMember? members)) = _
  rw [members?_ofMembers, Option.bind_some]

/-- An object that is read back is there, unlike null. -/
theorem optionalPart?_reread {α : Type} (read : Json → Option α) (members : List (String × Json)) :
    optionalPart? read (some (ofMembers members).reread) =
      (read (ofMembers members).reread).map some := by
  rw [reread_ofMembers]
  rfl

end Json

/-! ## Literals -/

/-- The literal that the text of a literal is read as, if it is one. -/
def Literal.reread? (literal : Literal) : Option Literal :=
  ofJson? literal.toJson.reread

/-- The content that the text of a content is read as. -/
def StoredContent.reread? (content : StoredContent) : Option StoredContent :=
  content.value.reread?.map fun value => { content with value }

theorem StoredContent.ofJson?_reread (content : StoredContent) (levels : Nat) :
    ofJson? (levels + 1) content.toJson.reread = content.reread? := by
  have hparts : content.toJson.reread.parts? ["field", "operator", "value"] =
      some [some (.ofString content.field), some (.ofString content.operator),
        some content.value.toJson.reread] := by
    rw [toJson, Json.reread_ofMembers, Json.parts?_ofMembers]
    simp [Json.uniqueMember?, Json.reread_ofString]
  unfold ofJson?
  rw [hparts]
  show ((Literal.ofJson? content.value.toJson.reread).bind fun value =>
    some (StoredContent.mk content.field content.operator value)) = _
  rw [reread?, Literal.reread?, Option.map_eq_bind]
  rfl

theorem StoredContent.depth_toJson (content : StoredContent) : content.toJson.depth = 1 := by
  have hvalue : content.value.toJson.depth = 0 := by
    cases content.value with
    | number value => cases value <;> rfl
    | text value => rfl
  simp [toJson, Json.ofMembers, Json.depth, Json.depthOfMembers, Json.ofString, hvalue]

/-! ## Nodes -/

namespace StoredNode

/-- The node that the text of the document of a node is read as. -/
def reread? : StoredNode → Option StoredNode
  | node kind left right content => do
    let left ←
      match left with
      | some left => left.reread?.map some
      | none => some none
    let right ←
      match right with
      | some right => right.reread?.map some
      | none => some none
    let content ←
      match content with
      | some content => content.reread?.map some
      | none => some none
    some (node kind left right content)

theorem reread?_node (kind : String) (left right : Option StoredNode)
    (content : Option StoredContent) :
    (node kind left right content).reread? = (do
      let left ← left.mapM reread?
      let right ← right.mapM reread?
      let content ← content.mapM StoredContent.reread?
      some (node kind left right content)) := by
  rw [reread?.eq_def]
  cases left <;> cases right <;> cases content <;> rfl

/-- The document of a node with these parts. -/
def jsonOfParts (kind : String) (left right : Option Json) (content : Json) : Json :=
  .ofMembers ([("type", .ofString kind)] ++ sideMember "left" left ++ sideMember "right" right ++
    [("value", content)])

theorem toJson_node (kind : String) (left right : Option StoredNode)
    (content : Option StoredContent) :
    (node kind left right content).toJson =
      jsonOfParts kind (left.map toJson) (right.map toJson) (contentJson content) := by
  rw [toJson.eq_def]
  cases left <;> cases right <;> rfl

theorem reread_jsonOfParts (kind : String) (left right : Option Json) (content : Json) :
    (jsonOfParts kind left right content).reread =
      jsonOfParts kind (left.map Json.reread) (right.map Json.reread) content.reread := by
  rw [jsonOfParts, Json.reread_ofMembers, jsonOfParts]
  cases left <;> cases right <;> simp [sideMember, Json.reread_ofString]

/-- The parts of a document are found in it. -/
theorem parts?_jsonOfParts (kind : String) (left right : Option Json) (content : Json) :
    (jsonOfParts kind left right content).parts? ["type", "left", "right", "value"] =
      some [some (.ofString kind), left, right, some content] := by
  rw [jsonOfParts, Json.parts?_ofMembers]
  cases left <;> cases right <;> simp [sideMember, Json.uniqueMember?]

/-- A document nests one level deeper than the deepest of its parts. -/
theorem depth_jsonOfParts (kind : String) (left right : Option Json) (content : Json) :
    (jsonOfParts kind left right content).depth =
      1 + max (max (left.elim 0 Json.depth) (right.elim 0 Json.depth)) content.depth := by
  cases left <;> cases right <;>
    simp only [jsonOfParts, sideMember, Option.toList, List.map_cons, List.map_nil,
      List.cons_append, List.nil_append, Json.ofMembers, Json.depth, Json.depthOfMembers,
      Json.ofString, Option.elim] <;>
    omega

theorem depth_toJson_pos (node : StoredNode) : 0 < node.toJson.depth := by
  obtain ⟨kind, left, right, content⟩ := node
  rw [toJson_node, depth_jsonOfParts]
  omega

/-- A document that is there is read by the reader of its part. -/
theorem optionalPart?_reread {α : Type} (read : Json → Option α) (node : StoredNode) :
    Json.optionalPart? read (some node.toJson.reread) = (read node.toJson.reread).map some := by
  obtain ⟨kind, left, right, content⟩ := node
  rw [toJson_node, jsonOfParts, Json.optionalPart?_reread]

theorem optionalPart?_side {levels : Nat} {side : Option StoredNode}
    (h : ∀ node, side = some node → ofJson? levels node.toJson.reread = node.reread?) :
    Json.optionalPart? (ofJson? levels) ((side.map toJson).map Json.reread) =
      side.mapM reread? := by
  cases side with
  | none => rfl
  | some node =>
    rw [Option.map_some, Option.map_some, optionalPart?_reread, h node rfl]
    rfl

theorem optionalPart?_content {levels : Nat} {content : Option StoredContent}
    (h : ∀ content', content = some content' → 0 < levels) :
    Json.optionalPart? (StoredContent.ofJson? levels) (some (contentJson content).reread) =
      content.mapM StoredContent.reread? := by
  cases content with
  | none => rfl
  | some content =>
    obtain ⟨levels, rfl⟩ := Nat.exists_eq_succ_of_ne_zero (Nat.ne_of_gt (h content rfl))
    have hread := content.ofJson?_reread levels
    rw [contentJson, StoredContent.toJson, Json.optionalPart?_reread, ← StoredContent.toJson, hread]
    rfl

/-- The document of a node is read as the node, if it does not nest deeper than there are
levels. -/
theorem ofJson?_reread (node : StoredNode) {levels : Nat} (h : node.toJson.depth ≤ levels) :
    ofJson? levels node.toJson.reread = node.reread? := by
  -- by induction on the levels, since the sides of a node stand inside options
  induction levels generalizing node with
  | zero => exact absurd node.depth_toJson_pos (Nat.not_lt.mpr h)
  | succ levels ih =>
    obtain ⟨kind, left, right, content⟩ := node
    rw [toJson_node] at h
    rw [depth_jsonOfParts] at h
    have hleft : Json.optionalPart? (ofJson? levels) ((left.map toJson).map Json.reread) =
        left.mapM reread? := by
      refine optionalPart?_side ?_
      rintro side rfl
      rw [Option.map_some, Option.elim_some] at h
      exact ih side (by omega)
    have hright : Json.optionalPart? (ofJson? levels) ((right.map toJson).map Json.reread) =
        right.mapM reread? := by
      refine optionalPart?_side ?_
      rintro side rfl
      rw [Option.map_some, Option.elim_some] at h
      exact ih side (by omega)
    have hcontent : Json.optionalPart? (StoredContent.ofJson? levels)
        (some (contentJson content).reread) = content.mapM StoredContent.reread? := by
      refine optionalPart?_content ?_
      rintro content rfl
      rw [contentJson, StoredContent.depth_toJson] at h
      omega
    rw [toJson_node, reread_jsonOfParts, ofJson?, parts?_jsonOfParts, reread?_node,
      ← hleft, ← hright, ← hcontent]
    rfl

/-- The text of the document of a node is read as the node, unless it nests deeper than texts of
documents may. -/
theorem ofText?_toText (node : StoredNode) (h : node.toJson.depth ≤ Json.maxNesting) :
    ofText? node.toJson.toText = node.reread? := by
  rw [ofText?, Json.ofText?_toText]
  exact node.ofJson?_reread h

end StoredNode

/-! ## Formulas -/

theorem Literal.reread?_text (value : String) :
    (Literal.text value).reread? = some (.text value) := by
  rw [reread?, toJson, Json.reread_ofString]
  rfl

namespace Formula

/-- The formula with the literals that the texts of its literals are read as. -/
def reread? : Formula → Option Formula
  | test condition => condition.value.reread?.map fun value => test { condition with value }
  | join connective left right => do
    let left ← left.reread?
    let right ← right.reread?
    some (join connective left right)

/-- The document of a formula nests one level deeper than the formula is high, by the content of
its lowest conditions. -/
theorem depth_toJson (formula : Formula) : formula.toJson.depth = formula.height + 1 := by
  rw [toJson]
  induction formula with
  | test condition =>
    rw [StoredNode.ofFormula, StoredNode.toJson_node, StoredNode.depth_jsonOfParts,
      StoredNode.contentJson, StoredContent.depth_toJson]
    rfl
  | join connective left right ihLeft ihRight =>
    rw [StoredNode.ofFormula, StoredNode.toJson_node, StoredNode.depth_jsonOfParts,
      StoredNode.contentJson, StoredContent.depth_toJson, Option.map_some, Option.map_some,
      Option.elim_some, Option.elim_some, ihLeft, ihRight, height]
    omega

theorem reread?_ofFormula (formula : Formula) :
    (StoredNode.ofFormula formula).reread? = formula.reread?.map StoredNode.ofFormula := by
  induction formula with
  | test condition =>
    rw [StoredNode.ofFormula, StoredNode.reread?_node, reread?]
    show ((StoredContent.reread? _).map some).bind _ = _
    rw [StoredContent.reread?]
    cases condition.value.reread? <;> rfl
  | join connective left right ihLeft ihRight =>
    rw [StoredNode.ofFormula, StoredNode.reread?_node, reread?]
    have hcontent : (StoredContent.mk connective.word "" (.text "")).reread? =
        some ⟨connective.word, "", .text ""⟩ := by
      rw [StoredContent.reread?, Literal.reread?_text]
      rfl
    show (((StoredNode.ofFormula left).reread?.map some).bind fun left =>
      ((StoredNode.ofFormula right).reread?.map some).bind fun right =>
        ((StoredContent.mk connective.word "" (.text "")).reread?.map some).bind fun content =>
          some (StoredNode.node StoredNode.joinKind left right content)) = _
    rw [ihLeft, ihRight, hcontent]
    cases left.reread? with
    | none => rfl
    | some left => cases right.reread? <;> rfl

/-- Literals are read back one by one: the conditions keep their fields, and the formula keeps its
height. -/
theorem shape_of_reread? {formula formula' : Formula} (h : formula.reread? = some formula') :
    formula'.height = formula.height ∧
      formula'.conditions.map (·.field) = formula.conditions.map (·.field) := by
  induction formula generalizing formula' with
  | test condition =>
    obtain ⟨value, -, rfl⟩ := Option.map_eq_some_iff.mp h
    exact ⟨rfl, rfl⟩
  | join connective left right ihLeft ihRight =>
    obtain ⟨left', hleft, h⟩ := Option.bind_eq_some_iff.mp h
    obtain ⟨right', hright, h⟩ := Option.bind_eq_some_iff.mp h
    obtain rfl := Option.some.inj h
    obtain ⟨hheight, hfields⟩ := ihLeft hleft
    obtain ⟨hheight', hfields'⟩ := ihRight hright
    simp [height, conditions, hheight, hheight', hfields, hfields']

/-- The nodes of a formula that is not too high and names its fields make the formula. -/
theorem toFormulaWithin_ofFormula {formula : Formula} {levels : Nat}
    (hheight : formula.height ≤ levels) (hfields : "" ∉ formula.conditions.map (·.field)) :
    StoredNode.toFormulaWithin levels (StoredNode.ofFormula formula) = .ok formula := by
  induction formula generalizing levels with
  | test condition =>
    obtain ⟨levels, rfl⟩ := Nat.exists_eq_succ_of_ne_zero (Nat.ne_of_gt hheight)
    have hfield : condition.field ≠ "" := by
      rintro hempty
      exact hfields (by simp [conditions, hempty])
    rw [StoredNode.ofFormula, StoredNode.toFormulaWithin.eq_def]
    simp only [StoredNode.conditionOf, if_neg hfield, Relation.ofSymbol?_symbol]
    rfl
  | join connective left right ihLeft ihRight =>
    rw [height] at hheight
    obtain ⟨levels, rfl⟩ : ∃ levels', levels = levels' + 1 := ⟨levels - 1, by omega⟩
    rw [conditions, List.map_append, List.mem_append, not_or] at hfields
    have hleft : StoredNode.toFormulaWithin levels (StoredNode.ofFormula left) = .ok left :=
      ihLeft (by omega) hfields.1
    have hright : StoredNode.toFormulaWithin levels (StoredNode.ofFormula right) = .ok right :=
      ihRight (by omega) hfields.2
    rw [StoredNode.ofFormula, StoredNode.toFormulaWithin.eq_def]
    simp only [Connective.ofWord?_word, hleft, hright]
    rfl

/-- The text of the document of a formula is read as the formula, if it is not too high and names
its fields. -/
theorem ofText?_toText {formula : Formula} (hheight : formula.height ≤ StoredNode.maxLevels)
    (hfields : "" ∉ formula.conditions.map (·.field)) :
    ofText? formula.toText = formula.reread? := by
  have hdepth : (StoredNode.ofFormula formula).toJson.depth ≤ Json.maxNesting := by
    have hexact : (StoredNode.ofFormula formula).toJson.depth = formula.height + 1 :=
      formula.depth_toJson
    rw [hexact]
    exact Nat.le_trans (Nat.succ_le_succ hheight) (by decide)
  rw [ofText?, toText, toJson, StoredNode.ofText?_toText _ hdepth, reread?_ofFormula]
  cases hreread : formula.reread? with
  | none => rfl
  | some formula' =>
    -- the checks of the nodes depend on the shape of the formula only
    obtain ⟨hheight', hfields'⟩ := shape_of_reread? hreread
    rw [← hheight'] at hheight
    rw [← hfields'] at hfields
    show (StoredNode.toFormulaWithin _ (StoredNode.ofFormula formula')).toOption = _
    rw [toFormulaWithin_ofFormula hheight hfields]
    rfl

/-- A formula comes back as it was iff its literals do. -/
theorem reread?_eq_self_iff {formula : Formula} :
    formula.reread? = some formula ↔
      ∀ condition ∈ formula.conditions, condition.value.reread? = some condition.value := by
  induction formula with
  | test condition =>
    obtain ⟨field, relation, value⟩ := condition
    simp [reread?, conditions]
  | join connective left right ihLeft ihRight =>
    rw [conditions, List.forall_mem_append, ← ihLeft, ← ihRight, reread?]
    cases left.reread? <;> cases right.reread? <;> simp

/-- One literal that is no literal when it is read back loses the formula. -/
theorem reread?_eq_none {formula : Formula} {condition : Condition}
    (hmem : condition ∈ formula.conditions) (hnone : condition.value.reread? = none) :
    formula.reread? = none := by
  induction formula with
  | test other =>
    obtain rfl := List.mem_singleton.mp hmem
    rw [reread?, hnone]
    rfl
  | join connective left right ihLeft ihRight =>
    rw [reread?]
    rcases List.mem_append.mp hmem with hleft | hright
    · rw [ihLeft hleft]
      rfl
    · rw [ihRight hright]
      cases left.reread? <;> rfl

end Formula

/-! ## Numbers -/

/-- The number is finite, and its JSON text is read as this number. -/
def Json.ReadsBack (value : Binary64) : Prop :=
  Json.ofText? (Json.ofNumber value).toText = some (.real value)

theorem Literal.reread?_number_eq_self_iff {value : Binary64} :
    (number value).reread? = some (number value) ↔ Json.ReadsBack value := by
  rw [Json.ReadsBack, Json.ofText?_toText, Option.some.injEq, reread?, toJson]
  cases value with
  | nan => simp [Json.ofNumber, Binary64.isFinite, Json.reread, ofJson?, Json.number?, Json.text?]
  | infinite negative =>
    simp [Json.ofNumber, Binary64.isFinite, Json.reread, ofJson?, Json.number?, Json.text?]
  | finite negative rank =>
    have hreread : ∃ read, (Json.ofNumber (.finite negative rank)).reread = .real read :=
      ⟨_, rfl⟩
    obtain ⟨read, hreread⟩ := hreread
    rw [hreread]
    cases read <;>
      simp [ofJson?, Json.number?, Json.text?, Binary64.isFinite, Option.filter]

/-- A text comes back, and a number comes back iff the JSON text of the number brings it back. -/
theorem Literal.reread?_eq_self_iff {literal : Literal} :
    literal.reread? = some literal ↔ ∀ value, literal = .number value → Json.ReadsBack value := by
  cases literal with
  | number value =>
    rw [reread?_number_eq_self_iff]
    constructor
    · rintro h value' heq
      obtain rfl := Literal.number.inj heq
      exact h
    · intro h
      exact h value rfl
  | text value => simp [reread?_text]

/-- A number that is not finite is written as null, which is no literal. -/
theorem Literal.reread?_of_not_isFinite {value : Binary64} (h : value.isFinite = false) :
    (number value).reread? = none := by
  rw [reread?, toJson, Json.ofNumber, if_neg (by simp [h])]
  rfl

end Criteria
