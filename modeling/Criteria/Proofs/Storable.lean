import Criteria.Proofs.Defects
import Criteria.Proofs.Storage

/-!
# Which formulas can be stored

A formula that has been made in any way is read back from the text of its document iff it is no
higher than stored formulas may be, names all its fields and holds no number that is lost; and then
it is read back as it was, whatever characters its texts hold. A document that nests deeper than
texts of documents may belongs to a formula that is too high in any case: reading with more levels
gives no other node, so nothing can be read from it that the checks would accept.
-/

namespace Criteria

open Outcome
open Number (Binary64)

/-! ## Reading with more levels -/

theorem Json.optionalPart?_mono {α : Type} {read read' : Json → Option α}
    (h : ∀ json value, read json = some value → read' json = some value) {part : Option Json}
    {value : Option α} (hpart : optionalPart? read part = some value) :
    optionalPart? read' part = some value := by
  unfold optionalPart? at hpart ⊢
  split at hpart
  · exact hpart
  · exact hpart
  · obtain ⟨found, hfound, rfl⟩ := Option.map_eq_some_iff.mp hpart
    rw [h _ _ hfound]
    rfl

theorem StoredContent.ofJson?_mono {levels levels' : Nat} (hle : levels ≤ levels') {json : Json}
    {content : StoredContent} (h : ofJson? levels json = some content) :
    ofJson? levels' json = some content := by
  cases levels with
  | zero => simp [ofJson?] at h
  | succ levels =>
    obtain ⟨levels', rfl⟩ : ∃ count, levels' = count + 1 := ⟨levels' - 1, by omega⟩
    unfold ofJson? at h ⊢
    split at h
    · next hparts =>
      rw [hparts]
      exact h
    · simp at h

namespace StoredNode

/-- What is read with some levels is read with more levels, too. -/
theorem ofJson?_mono {levels levels' : Nat} (hle : levels ≤ levels') {json : Json}
    {node : StoredNode} (h : ofJson? levels json = some node) :
    ofJson? levels' json = some node := by
  induction levels generalizing levels' json node with
  | zero => simp [ofJson?] at h
  | succ levels ih =>
    obtain ⟨levels', rfl⟩ : ∃ count, levels' = count + 1 := ⟨levels' - 1, by omega⟩
    have hside : ∀ json node, ofJson? levels json = some node →
        ofJson? levels' json = some node := fun json node => ih (by omega)
    have hwithin : ∀ json content, StoredContent.ofJson? levels json = some content →
        StoredContent.ofJson? levels' json = some content :=
      fun json content => StoredContent.ofJson?_mono (by omega)
    rw [ofJson?] at h ⊢
    obtain ⟨parts, hparts, h⟩ := Option.bind_eq_some_iff.mp h
    refine Option.bind_eq_some_iff.mpr ⟨parts, hparts, ?_⟩
    split at h
    · next kind left right content =>
      obtain ⟨kind', hkind, h⟩ := Option.bind_eq_some_iff.mp h
      obtain ⟨left', hleft, h⟩ := Option.bind_eq_some_iff.mp h
      obtain ⟨right', hright, h⟩ := Option.bind_eq_some_iff.mp h
      obtain ⟨content', hcontent, h⟩ := Option.bind_eq_some_iff.mp h
      refine Option.bind_eq_some_iff.mpr ⟨kind', hkind, ?_⟩
      refine Option.bind_eq_some_iff.mpr ⟨left', Json.optionalPart?_mono hside hleft, ?_⟩
      refine Option.bind_eq_some_iff.mpr ⟨right', Json.optionalPart?_mono hside hright, ?_⟩
      exact Option.bind_eq_some_iff.mpr ⟨content', Json.optionalPart?_mono hwithin hcontent, h⟩
    · simp at h

/-- Whatever is read from the text of the document of a node is the node with its literals read
back, however deep the text nests. -/
theorem reread?_of_ofText? {node node' : StoredNode} (h : ofText? node.toJson.toText = some node') :
    node.reread? = some node' := by
  rw [ofText?, Json.ofText?_toText] at h
  have hmore := ofJson?_mono (Nat.le_max_left Json.maxNesting node.toJson.depth) h
  rw [ofJson?_reread node (Nat.le_max_right _ _)] at hmore
  exact hmore

end StoredNode

/-! ## Reading formulas back -/

namespace Formula

/-- The nodes of a formula make that formula or none. -/
theorem toFormulaWithin_ofFormula_eq_ok_iff {formula formula' : Formula} {levels : Nat} :
    StoredNode.toFormulaWithin levels (StoredNode.ofFormula formula) = .ok formula' ↔
      formula' = formula ∧ formula.height ≤ levels ∧ "" ∉ formula.conditions.map (·.field) := by
  constructor
  · intro h
    induction formula generalizing levels formula' with
    | test condition =>
      cases levels with
      | zero => simp [StoredNode.toFormulaWithin.eq_def] at h
      | succ levels =>
        rw [StoredNode.ofFormula, StoredNode.toFormulaWithin_test] at h
        simp only [StoredNode.conditionOf, Relation.ofSymbol?_symbol] at h
        split at h
        · simp at h
        · next hfield =>
          obtain rfl := Except.ok.inj h
          refine ⟨rfl, Nat.le_add_left 1 levels, ?_⟩
          simpa [conditions] using Ne.symm hfield
    | join connective left right ihLeft ihRight =>
      cases levels with
      | zero => simp [StoredNode.toFormulaWithin.eq_def] at h
      | succ levels =>
        rw [StoredNode.ofFormula, StoredNode.toFormulaWithin_join] at h
        obtain ⟨left', hleft, h⟩ := bind_eq_ok_iff.mp h
        obtain ⟨right', hright, h⟩ := bind_eq_ok_iff.mp h
        obtain rfl := Except.ok.inj h
        obtain ⟨rfl, hleftHeight, hleftFields⟩ := ihLeft hleft
        obtain ⟨rfl, hrightHeight, hrightFields⟩ := ihRight hright
        refine ⟨rfl, ?_, ?_⟩
        · rw [height]
          omega
        · rw [conditions, List.map_append, List.mem_append, not_or]
          exact ⟨hleftFields, hrightFields⟩
  · rintro ⟨rfl, hheight, hfields⟩
    exact toFormulaWithin_ofFormula hheight hfields

/-- The text of the document of a formula is read as the formula with its literals read back, and
that only if it is not too high and names its fields. -/
theorem ofText?_toText_eq_some_iff {formula formula' : Formula} :
    ofText? formula.toText = some formula' ↔
      formula.reread? = some formula' ∧ formula.height ≤ StoredNode.maxLevels ∧
        "" ∉ formula.conditions.map (·.field) := by
  constructor
  · intro h
    obtain ⟨node, hnode, h⟩ := Option.bind_eq_some_iff.mp h
    have hreread := StoredNode.reread?_of_ofText? hnode
    rw [reread?_ofFormula] at hreread
    obtain ⟨read, hread, rfl⟩ := Option.map_eq_some_iff.mp hreread
    obtain ⟨rfl, hheight, hfields⟩ :=
      toFormulaWithin_ofFormula_eq_ok_iff.mp (eq_ok_of_toOption h)
    -- reading literals back has changed neither the height nor the fields
    obtain ⟨hheight', hfields'⟩ := shape_of_reread? hread
    rw [hheight'] at hheight
    rw [hfields'] at hfields
    exact ⟨hread, hheight, hfields⟩
  · rintro ⟨hread, hheight, hfields⟩
    rw [ofText?_toText hheight hfields, hread]

/-- A formula whose numbers are read back is read back. -/
theorem reread?_eq_self {formula : Formula} (h : ∀ value ∈ formula.numbers, Json.ReadsBack value) :
    formula.reread? = some formula := by
  rw [reread?_eq_self_iff]
  intro condition hcondition
  refine Literal.reread?_eq_self_iff.mpr fun value hvalue => ?_
  exact h value (mem_numbers_iff.mpr ⟨condition, hcondition, hvalue⟩)

/-- A formula with a number that is not finite is read back as none. -/
theorem isFinite_of_reread? {formula formula' : Formula} (h : formula.reread? = some formula') :
    ∀ value ∈ formula.numbers, value.isFinite = true := by
  intro value hmem
  obtain ⟨condition, hcondition, hvalue⟩ := mem_numbers_iff.mp hmem
  cases hfinite : value.isFinite with
  | true => rfl
  | false =>
    have hlost : condition.value.reread? = none := by
      rw [hvalue]
      exact Literal.reread?_of_not_isFinite hfinite
    rw [reread?_eq_none hcondition hlost] at h
    simp at h

/-- A formula can be stored: it has no more levels than a stored formula may have, it names all its
fields, and its numbers are finite. -/
structure Storable (formula : Formula) : Prop where
  height_le : formula.height ≤ StoredNode.maxLevels
  field_ne : ∀ condition ∈ formula.conditions, condition.field ≠ ""
  isFinite : ∀ value ∈ formula.numbers, value.isFinite = true

theorem field_ne_iff {formula : Formula} :
    "" ∉ formula.conditions.map (·.field) ↔
      ∀ condition ∈ formula.conditions, condition.field ≠ "" := by
  simp

end Formula

/-- Where the JSON texts of the finite numbers in a formula bring them back, the text of its
document is read as a formula iff the formula can be stored, and what is read is the formula. -/
theorem read_back_iff_storable (formula : Formula)
    (hlibrary : ∀ value ∈ formula.numbers, value.isFinite = true → Json.ReadsBack value) :
    ((∃ formula', Formula.ofText? formula.toText = some formula') ↔ formula.Storable) ∧
      ∀ formula', Formula.ofText? formula.toText = some formula' → formula' = formula := by
  have hself : (∀ value ∈ formula.numbers, value.isFinite = true) →
      formula.reread? = some formula :=
    fun hfinite => Formula.reread?_eq_self fun value hmem => hlibrary value hmem (hfinite value hmem)
  refine ⟨⟨?_, ?_⟩, ?_⟩
  · rintro ⟨formula', h⟩
    obtain ⟨hread, hheight, hfields⟩ := Formula.ofText?_toText_eq_some_iff.mp h
    exact ⟨hheight, Formula.field_ne_iff.mp hfields, Formula.isFinite_of_reread? hread⟩
  · intro hstorable
    refine ⟨formula, Formula.ofText?_toText_eq_some_iff.mpr ?_⟩
    exact ⟨hself hstorable.isFinite, hstorable.height_le,
      Formula.field_ne_iff.mpr hstorable.field_ne⟩
  · intro formula' h
    obtain ⟨hread, -, -⟩ := Formula.ofText?_toText_eq_some_iff.mp h
    have hequal := hread.symm.trans (hself (Formula.isFinite_of_reread? hread))
    exact Option.some.inj hequal

/-- A formula with marks, backslashes and a control character in its names and texts is read back,
with the digits between marks still a text. Without the name of its field it is not. -/
theorem escaped_texts_are_read_back :
    let named (field : String) : Formula :=
      .join .or (.test ⟨field, .ge, .number (.ofNat 42)⟩) (.test ⟨"\\\u0001", .eq, .text "30"⟩)
    Formula.ofText? (named "\"n\"").toText = some (named "\"n\"") ∧
      ¬ ∃ formula, Formula.ofText? (named "").toText = some formula := by
  intro named
  have hnumber : ∀ field, ∀ value ∈ (named field).numbers, value = .ofNat 42 := by
    intro field value hmem
    simpa only [named, Formula.numbers, Formula.conditions, List.cons_append, List.nil_append,
      List.filterMap_cons, Literal.number?, List.filterMap_nil, List.mem_singleton] using hmem
  have hlibrary : ∀ field, ∀ value ∈ (named field).numbers, value.isFinite = true →
      Json.ReadsBack value := by
    intro field value hmem _
    rw [hnumber field value hmem]
    exact Literal.reread?_number_eq_self_iff.mp (by decide +kernel)
  have hstorable : (named "\"n\"").Storable := by
    refine ⟨by decide, by decide, fun value hmem => ?_⟩
    rw [hnumber _ value hmem]
    decide +kernel
  constructor
  · obtain ⟨hiff, hself⟩ := read_back_iff_storable (named "\"n\"") (hlibrary _)
    obtain ⟨formula, hformula⟩ := hiff.mpr hstorable
    rw [hformula, hself formula hformula]
  · rw [(read_back_iff_storable (named "") (hlibrary _)).1]
    intro hempty
    exact hempty.field_ne _ List.mem_cons_self rfl

end Criteria
