import Criteria.Proofs.Arrangements
import Criteria.Proofs.Storable

/-!
# Evaluating documents

The documents of a formula and of a record are read as what they were made of, if the formula can
be stored and all numbers are finite: a literal or a value is read as one of its own kind, whatever
its text looks like. So a formula is satisfied in its stored form by the stored form of a record iff
it is satisfied by the record, and it misses the same field (`evaluation_of_documents`). The order
of the members is of no account, here as in `Json.Arranges`.
-/

namespace Criteria

open Number (Binary64)

/-! ## Literals and values -/

theorem Json.number?_ofNumber {value : Binary64} (h : value.isFinite = true) :
    (ofNumber value).number? = some value := by
  rw [ofNumber, if_pos h, number?]
  exact Option.filter_some_pos h

/-- A literal can be stored: it is no number, or a finite one. -/
def Literal.Storable (literal : Literal) : Prop :=
  ∀ number ∈ literal.number?, number.isFinite = true

/-- A literal is read back with its kind. -/
theorem Literal.ofJson?_toJson {literal : Literal} (h : literal.Storable) :
    ofJson? literal.toJson = some literal := by
  cases literal with
  | number value => rw [toJson, ofJson?, Json.number?_ofNumber (h value rfl)]
  | text value => rfl

/-- The number that a value is. -/
def Value.number? : Value → Option Binary64
  | number value => some value
  | boolean _ | text _ => none

/-- A value can be stored: it is no number, or a finite one. -/
def Value.Storable (value : Value) : Prop :=
  ∀ number ∈ value.number?, number.isFinite = true

/-- A value is read back with its kind. -/
theorem Value.ofJson?_toJson {value : Value} (h : value.Storable) :
    ofJson? value.toJson = some value := by
  cases value with
  | boolean value => rfl
  | number value =>
    have hread : Literal.ofJson? (Literal.number value).toJson = some (.number value) :=
      Literal.ofJson?_toJson h
    rw [Literal.toJson, Json.ofNumber, if_pos (h value rfl)] at hread
    rw [toJson, Json.ofNumber, if_pos (h value rfl), ofJson?, hread]
    · rfl
    · simp
  | text value => rfl

namespace Json

variable {arrange : Json → Json}

theorem Arranges.literal (h : Arranges arrange) (literal : Literal) :
    arrange literal.toJson = literal.toJson := by
  cases literal with
  | number value => exact h.ofNumber value
  | text value => exact h.ofString value

theorem Arranges.value (h : Arranges arrange) (value : Value) :
    arrange value.toJson = value.toJson := by
  cases value with
  | boolean value => exact h.boolean value
  | number value => exact h.ofNumber value
  | text value => exact h.ofString value

/-- An arranged object is there, unlike null. -/
theorem Arranges.optionalPart? {α : Type} (h : Arranges arrange)
    {members : List (String × Json)} (hnodup : (members.map (·.1)).Nodup)
    (read : Json → Option α) :
    Json.optionalPart? read (some (arrange (.ofMembers members))) =
      (read (arrange (.ofMembers members))).map some := by
  obtain ⟨arranged, harranged, -⟩ := h.ofMembers members hnodup
  rw [harranged]
  rfl

end Json

/-! ## Formulas -/

theorem Formula.numbers_join (connective : Connective) (left right : Formula) :
    (join connective left right).numbers = left.numbers ++ right.numbers := by
  rw [numbers, conditions, List.filterMap_append]
  rfl

section Formulas

variable {arrange : Json → Json}

namespace StoredContent

theorem ofJson?_arrange (h : Json.Arranges arrange) {content : StoredContent}
    (hvalue : content.value.Storable) (levels : Nat) :
    ofJson? (levels + 1) (arrange content.toJson) = some content := by
  have hparts : (arrange content.toJson).parts? ["field", "operator", "value"] =
      some [some (.ofString content.field), some (.ofString content.operator),
        some content.value.toJson] := by
    rw [toJson, h.parts? (by simp)]
    simp [Json.uniqueMember?, h.ofString, h.literal]
  unfold ofJson?
  rw [hparts]
  show ((Literal.ofJson? content.value.toJson).bind fun value =>
    some (StoredContent.mk content.field content.operator value)) = _
  rw [Literal.ofJson?_toJson hvalue]
  rfl

theorem optionalPart?_arrange (h : Json.Arranges arrange) {content : StoredContent}
    (hvalue : content.value.Storable) (levels : Nat) :
    Json.optionalPart? (ofJson? (levels + 1)) (some (arrange content.toJson)) =
      some (some content) := by
  have hread := ofJson?_arrange h hvalue levels
  rw [toJson] at hread ⊢
  rw [h.optionalPart? (by simp), hread]
  rfl

theorem depth_arrange_pos (h : Json.Arranges arrange) (content : StoredContent) :
    0 < (arrange content.toJson).depth :=
  Nat.zero_lt_of_lt (h.depth_lt (by simp) List.mem_cons_self)

end StoredContent

namespace StoredNode

theorem nodup_parts (kind : String) (left right : Option Json) (content : Json) :
    (([("type", Json.ofString kind)] ++ sideMember "left" left ++ sideMember "right" right ++
      [("value", content)]).map (·.1)).Nodup := by
  cases left <;> cases right <;> simp [sideMember]

/-- The parts of an arranged document are found in it, arranged. -/
theorem parts?_arrange (h : Json.Arranges arrange) (kind : String) (left right : Option Json)
    (content : Json) :
    (arrange (jsonOfParts kind left right content)).parts? ["type", "left", "right", "value"] =
      some [some (.ofString kind), left.map arrange, right.map arrange,
        some (arrange content)] := by
  rw [jsonOfParts, h.parts? (nodup_parts kind left right content)]
  cases left <;> cases right <;> simp [sideMember, Json.uniqueMember?, h.ofString]

/-- An arranged document nests deeper than each of its parts. -/
theorem depth_arrange_lt (h : Json.Arranges arrange) (kind : String) (left right : Option Json)
    (content : Json) :
    (∀ side, left = some side →
        (arrange side).depth < (arrange (jsonOfParts kind left right content)).depth) ∧
      (∀ side, right = some side →
        (arrange side).depth < (arrange (jsonOfParts kind left right content)).depth) ∧
      (arrange content).depth < (arrange (jsonOfParts kind left right content)).depth := by
  refine ⟨?_, ?_, ?_⟩
  · rintro side rfl
    exact h.depth_lt (nodup_parts ..) (show ("left", side) ∈ _ by simp [sideMember])
  · rintro side rfl
    exact h.depth_lt (nodup_parts ..) (show ("right", side) ∈ _ by simp [sideMember])
  · exact h.depth_lt (nodup_parts ..) (show ("value", content) ∈ _ by simp)

theorem optionalPart?_arrange {α : Type} (h : Json.Arranges arrange) (read : Json → Option α)
    (node : StoredNode) :
    Json.optionalPart? read (some (arrange node.toJson)) =
      (read (arrange node.toJson)).map some := by
  obtain ⟨kind, left, right, content⟩ := node
  rw [toJson_node, jsonOfParts]
  exact h.optionalPart? (nodup_parts _ _ _ _) read

/-- The node that an arranged document is read as, given what its sides are read as. -/
theorem ofJson?_jsonOfParts (h : Json.Arranges arrange) (kind : String) (left right : Option Json)
    {content : StoredContent} (hvalue : content.value.Storable) {levels : Nat}
    (hlevels : (arrange (jsonOfParts kind left right content.toJson)).depth ≤ levels + 1) :
    ofJson? (levels + 1) (arrange (jsonOfParts kind left right content.toJson)) = (do
      let left ← Json.optionalPart? (ofJson? levels) (left.map arrange)
      let right ← Json.optionalPart? (ofJson? levels) (right.map arrange)
      some (node kind left right (some content))) := by
  have hdepth := (depth_arrange_lt h kind left right content.toJson).2.2
  have hpos := content.depth_arrange_pos h
  -- the content needs a level of its own
  obtain ⟨levels, rfl⟩ : ∃ levels', levels = levels' + 1 := ⟨levels - 1, by omega⟩
  rw [ofJson?, parts?_arrange h]
  simp only [Option.bind_eq_bind, Option.bind_some, Json.text?, Json.ofString,
    StoredContent.optionalPart?_arrange h hvalue]

/-- The nodes of a formula are read back from its document, however it is arranged. -/
theorem ofJson?_arrange (h : Json.Arranges arrange) {formula : Formula}
    (hfinite : ∀ value ∈ formula.numbers, value.isFinite = true) {levels : Nat}
    (hlevels : (arrange formula.toJson).depth ≤ levels) :
    ofJson? levels (arrange formula.toJson) = some (ofFormula formula) := by
  induction formula generalizing levels with
  | test condition =>
    let content : StoredContent := ⟨condition.field, condition.relation.symbol, condition.value⟩
    have hjson : (Formula.test condition).toJson = jsonOfParts testKind none none content.toJson :=
      toJson_node ..
    rw [hjson] at hlevels ⊢
    have hdepth := (depth_arrange_lt h testKind none none content.toJson).2.2
    obtain ⟨levels, rfl⟩ : ∃ levels', levels = levels' + 1 := ⟨levels - 1, by omega⟩
    have hvalue : content.value.Storable := by
      intro number hnumber
      exact hfinite number (List.mem_filterMap.mpr ⟨condition, List.mem_cons_self, hnumber⟩)
    rw [ofJson?_jsonOfParts h testKind none none hvalue hlevels]
    rfl
  | join connective left right ihLeft ihRight =>
    let content : StoredContent := ⟨connective.word, "", .text ""⟩
    have hjson : (Formula.join connective left right).toJson =
        jsonOfParts joinKind (some left.toJson) (some right.toJson) content.toJson :=
      toJson_node ..
    rw [hjson] at hlevels ⊢
    obtain ⟨hleft, hright, -⟩ :=
      depth_arrange_lt h joinKind (some left.toJson) (some right.toJson) content.toJson
    have hleftDepth := hleft _ rfl
    have hrightDepth := hright _ rfl
    obtain ⟨levels, rfl⟩ : ∃ levels', levels = levels' + 1 := ⟨levels - 1, by omega⟩
    rw [Formula.numbers_join] at hfinite
    have hreadLeft : ofJson? levels (arrange left.toJson) = some (ofFormula left) :=
      ihLeft (fun value hmem => hfinite value (List.mem_append_left _ hmem)) (by omega)
    have hreadRight : ofJson? levels (arrange right.toJson) = some (ofFormula right) :=
      ihRight (fun value hmem => hfinite value (List.mem_append_right _ hmem)) (by omega)
    have hvalue : content.value.Storable := by
      simp [content, Literal.Storable, Literal.number?]
    rw [Formula.toJson] at hreadLeft hreadRight
    rw [ofJson?_jsonOfParts h joinKind _ _ hvalue hlevels, Option.map_some, Option.map_some,
      Formula.toJson, Formula.toJson, optionalPart?_arrange h, optionalPart?_arrange h,
      hreadLeft, hreadRight]
    rfl

end StoredNode

/-- A formula that can be stored is read back from its document, however it is arranged. -/
theorem Formula.ofJson_arrange (h : Json.Arranges arrange) {formula : Formula}
    (hstorable : formula.Storable) : ofJson (arrange formula.toJson) = .ok formula := by
  have hread := StoredNode.ofJson?_arrange h hstorable.isFinite (Nat.le_refl _)
  obtain ⟨members, hobject⟩ : ∃ members, arrange formula.toJson = .ofMembers members := by
    rw [toJson]
    obtain ⟨kind, left, right, content⟩ := StoredNode.ofFormula formula
    rw [StoredNode.toJson_node, StoredNode.jsonOfParts]
    obtain ⟨members, harranged, -⟩ := h.ofMembers _ (StoredNode.nodup_parts _ _ _ _)
    exact ⟨members, harranged⟩
  rw [hobject] at hread ⊢
  have hnodes : (StoredNode.ofFormula formula).toFormula = .ok formula :=
    toFormulaWithin_ofFormula hstorable.height_le (field_ne_iff.mpr hstorable.field_ne)
  rw [Json.ofMembers] at hread ⊢
  simp only [ofJson, hread, hnodes]

end Formulas

/-! ## Records -/

namespace Record

/-- A record can be stored: its values can. -/
def Storable (record : Record) : Prop :=
  ∀ entry ∈ record.entries, entry.2.Storable

theorem mapM_valueOfMember {entries : List (String × Value)}
    (h : ∀ entry ∈ entries, entry.2.Storable) :
    (entries.map fun entry => (entry.1, entry.2.toJson)).mapM valueOfMember = .ok entries := by
  induction entries with
  | nil => rfl
  | cons entry entries ih =>
    obtain ⟨hentry, hentries⟩ := List.forall_mem_cons.mp h
    rw [List.map_cons, List.mapM_cons, valueOfMember, Value.ofJson?_toJson hentry, ih hentries]
    rfl

/-- The entries of a record stay as they are when they are put in order. -/
theorem ofList_entries (record : Record) : ofList record.entries = record := by
  have hentries : Entries.ofList record.entries = record.entries :=
    Entries.ofList_eq_of_perm record.increasing (.refl _)
  obtain ⟨entries, hincreasing⟩ := record
  simp only [ofList, hentries]

/-- A record whose numbers are finite is read back from its members, in whatever order they are. -/
theorem ofJson_ofMembers {record : Record} (hstorable : record.Storable)
    {members : List (String × Json)}
    (hperm : members.Perm (record.entries.map fun entry => (entry.1, entry.2.toJson))) :
    ofJson (.ofMembers members) = .ok record := by
  have hincreasing : Entries.Increasing
      (record.entries.map fun entry => (entry.1, entry.2.toJson)) :=
    List.pairwise_map.mpr record.increasing
  rw [ofJson, Json.members?_ofMembers]
  show (((Entries.ofList members).mapM valueOfMember).bind fun entries =>
    .ok (ofList entries)) = _
  rw [Entries.ofList_eq_of_perm hincreasing hperm, mapM_valueOfMember hstorable]
  exact congrArg Except.ok record.ofList_entries

theorem ofJson_arrange {arrange : Json → Json} (h : Json.Arranges arrange) {record : Record}
    (hstorable : record.Storable) : ofJson (arrange record.toJson) = .ok record := by
  have hnames : ((record.entries.map fun entry => (entry.1, entry.2.toJson)).map (·.1)).Nodup := by
    rw [List.map_map]
    exact Entries.nodup_of_increasing record.increasing
  obtain ⟨arranged, harranged, hperm⟩ := h.ofMembers _ hnames
  rw [toJson, harranged]
  refine ofJson_ofMembers hstorable (hperm.trans (.of_eq ?_))
  rw [List.map_map]
  refine List.map_congr_left fun entry _ => ?_
  exact Prod.ext rfl (h.value entry.2)

end Record

/-! ## Evaluation -/

theorem evaluateDocuments_arrange {arrange : Json → Json} (h : Json.Arranges arrange)
    {formula : Formula} {record : Record} (hformula : formula.Storable)
    (hrecord : record.Storable) :
    evaluateDocuments (arrange formula.toJson) (arrange record.toJson) = formula.eval record := by
  rw [evaluateDocuments, Formula.ofJson_arrange h hformula]
  show ((Record.ofJson (arrange record.toJson)).bind fun record => formula.eval record) = _
  rw [Record.ofJson_arrange h hrecord]
  rfl

/-- A record whose numbers are finite is read back from its object, and evaluating the document of
a formula that can be stored on this object has the outcome of evaluating the formula on the
record, be it a truth value or a missing field. So it is with the members in the order in which
they are written and with all objects held as maps. -/
theorem evaluation_of_documents {formula : Formula} {record : Record}
    (hformula : formula.Storable) (hrecord : record.Storable) :
    (Record.ofJson record.toJson = .ok record ∧
      evaluateDocuments formula.toJson record.toJson = formula.eval record) ∧
    (Record.ofJson record.toJson.settle = .ok record ∧
      evaluateDocuments formula.toJson.settle record.toJson.settle = formula.eval record) :=
  ⟨⟨Record.ofJson_arrange Json.arranges_id hrecord,
      evaluateDocuments_arrange Json.arranges_id hformula hrecord⟩,
    ⟨Record.ofJson_arrange Json.arranges_settle hrecord,
      evaluateDocuments_arrange Json.arranges_settle hformula hrecord⟩⟩

/-- A boolean is still compared with a number as one or zero, and digits that are a text are still
compared as a text. A field that the record lacks is still missing. -/
theorem evaluation_of_documents_by_kind :
    let formula : Formula :=
      .join .and (.join .or (.test ⟨"age", .lt, .number (.ofNat 40)⟩)
        (.test ⟨"active", .eq, .number (.ofNat 1)⟩)) (.test ⟨"code", .ne, .text "030"⟩)
    let entries : List (String × Value) := [("age", .number (.ofNat 42)), ("active", .boolean true)]
    formula.Storable ∧
      ((Record.ofList (("code", .text "30") :: entries)).Storable ∧
        evaluateDocuments formula.toJson.settle
          (Record.ofList (("code", .text "30") :: entries)).toJson.settle = .ok true) ∧
      (Record.ofList entries).Storable ∧
        evaluateDocuments formula.toJson.settle (Record.ofList entries).toJson.settle =
          .error (.missingField "code") := by
  intro formula entries
  have hformula : formula.Storable := by
    refine ⟨by decide, by decide, ?_⟩
    decide +kernel
  have hwhole : (Record.ofList (("code", .text "30") :: entries)).Storable := by
    simp only [Record.Storable, Value.Storable]
    decide +kernel
  have hpart : (Record.ofList entries).Storable := by
    simp only [Record.Storable, Value.Storable]
    decide +kernel
  refine ⟨hformula, ⟨hwhole, ?_⟩, hpart, ?_⟩
  · rw [(evaluation_of_documents hformula hwhole).2.2]
    exact Outcome.eq_ok_of_toOption (by decide +kernel)
  · rw [(evaluation_of_documents hformula hpart).2.2]
    rfl

end Criteria
