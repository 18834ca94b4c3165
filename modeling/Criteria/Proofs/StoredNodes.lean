import Criteria.Proofs.StoredEvaluation

/-!
# Nodes are read back

A stored node need not be part of a formula: its kind can be any text, and each of its sides and its
content can be there or not, whatever the kind. A document keeps all of that, missing parts
included. So the text of the document of a node is read as that node, unless the text nests deeper
than texts of documents may or the node holds a number that is not finite, and then nothing is read
from it (`stored_node_is_read_back_iff`).
-/

namespace Criteria

open Number (Binary64)

/-! ## Parts that may be missing -/

/-- A part that may be missing is read back as it was, if it is read back as it was when it is
there. -/
theorem Json.mapM_eq_some_iff {α : Type} {read : α → Option α} {p : α → Prop} {part : Option α}
    (h : ∀ value, part = some value → ∀ value', read value = some value' ↔ value' = value ∧ p value)
    {part' : Option α} :
    part.mapM read = some part' ↔ part' = part ∧ ∀ value, part = some value → p value := by
  cases part with
  | none =>
    have hread : (none : Option α).mapM read = some none := rfl
    rw [hread]
    simp [eq_comm]
  | some value =>
    have hread : (some value).mapM read = (read value).map some := rfl
    rw [hread, Option.map_eq_some_iff]
    simp only [h value rfl, Option.some.injEq, forall_eq']
    constructor
    · rintro ⟨value', ⟨rfl, hp⟩, rfl⟩
      exact ⟨rfl, hp⟩
    · rintro ⟨rfl, hp⟩
      exact ⟨value, ⟨rfl, hp⟩, rfl⟩

/-! ## Literals and contents -/

theorem Literal.reread?_eq_some_iff {literal literal' : Literal}
    (hlibrary : ∀ value ∈ literal.number?, value.isFinite = true → Json.ReadsBack value) :
    literal.reread? = some literal' ↔ literal' = literal ∧ literal.Storable := by
  cases literal with
  | number value =>
    cases hfinite : value.isFinite with
    | true =>
      have hback := reread?_number_eq_self_iff.mpr (hlibrary value rfl hfinite)
      have hstorable : (number value).Storable := by simp [Storable, number?, hfinite]
      rw [hback, Option.some.injEq, eq_comm]
      exact (and_iff_left hstorable).symm
    | false =>
      rw [reread?_of_not_isFinite hfinite]
      simp [Storable, number?, hfinite]
  | text value =>
    have hstorable : (text value).Storable := by simp [Storable, number?]
    rw [reread?_text, Option.some.injEq, eq_comm]
    exact (and_iff_left hstorable).symm

theorem StoredContent.reread?_eq_some_iff {content content' : StoredContent}
    (hlibrary : ∀ value ∈ content.value.number?, value.isFinite = true → Json.ReadsBack value) :
    content.reread? = some content' ↔ content' = content ∧ content.value.Storable := by
  rw [reread?, Option.map_eq_some_iff]
  simp only [Literal.reread?_eq_some_iff hlibrary]
  constructor
  · rintro ⟨value, ⟨rfl, hstorable⟩, rfl⟩
    exact ⟨rfl, hstorable⟩
  · rintro ⟨rfl, hstorable⟩
    exact ⟨content'.value, ⟨rfl, hstorable⟩, rfl⟩

/-! ## Nodes -/

namespace StoredNode

/-- What holds of a node whenever it holds of the sides that are there holds of all nodes. -/
@[elab_as_elim]
theorem induction {motive : StoredNode → Prop}
    (node : ∀ kind left right content, (∀ side, left = some side → motive side) →
      (∀ side, right = some side → motive side) → motive (node kind left right content)) :
    ∀ stored, motive stored
  | .node kind left right content =>
    node kind left right content (fun side _ => induction node side)
      (fun side _ => induction node side)
termination_by stored => sizeOf stored
decreasing_by
  all_goals
    subst_vars
    simp only [StoredNode.node.sizeOf_spec, Option.some.sizeOf_spec]
    omega

/-- The numbers that a node and the nodes below it hold. -/
def numbers : StoredNode → List Binary64
  | node _ left right content =>
    let leftNumbers :=
      match left with
      | some left => left.numbers
      | none => []
    let rightNumbers :=
      match right with
      | some right => right.numbers
      | none => []
    leftNumbers ++ rightNumbers ++ (content.bind (·.value.number?)).toList

theorem forall_mem_numbers_node {p : Binary64 → Prop} {kind : String}
    {left right : Option StoredNode} {content : Option StoredContent} :
    (∀ value ∈ (node kind left right content).numbers, p value) ↔
      (∀ side, left = some side → ∀ value ∈ side.numbers, p value) ∧
        (∀ side, right = some side → ∀ value ∈ side.numbers, p value) ∧
          ∀ held, content = some held → ∀ value ∈ held.value.number?, p value := by
  rw [numbers.eq_def]
  simp only [List.forall_mem_append, and_assoc]
  refine and_congr ?_ (and_congr ?_ ?_)
  · cases left <;> simp
  · cases right <;> simp
  · cases content <;> simp

/-- A node is read back as it was, if the numbers that it holds are finite. -/
theorem reread?_eq_some_iff {stored stored' : StoredNode}
    (hlibrary : ∀ value ∈ stored.numbers, value.isFinite = true → Json.ReadsBack value) :
    stored.reread? = some stored' ↔
      stored' = stored ∧ ∀ value ∈ stored.numbers, value.isFinite = true := by
  induction stored using induction generalizing stored' with
  | node kind left right content ihLeft ihRight =>
    obtain ⟨hlibraryLeft, hlibraryRight, hlibraryContent⟩ := forall_mem_numbers_node.mp hlibrary
    have hleft : ∀ left', left.mapM reread? = some left' ↔ left' = left ∧
        ∀ side, left = some side → ∀ value ∈ side.numbers, value.isFinite = true :=
      fun _ => Json.mapM_eq_some_iff fun side hside _ => ihLeft side hside (hlibraryLeft side hside)
    have hright : ∀ right', right.mapM reread? = some right' ↔ right' = right ∧
        ∀ side, right = some side → ∀ value ∈ side.numbers, value.isFinite = true :=
      fun _ => Json.mapM_eq_some_iff fun side hside _ =>
        ihRight side hside (hlibraryRight side hside)
    have hcontent : ∀ content', content.mapM StoredContent.reread? = some content' ↔
        content' = content ∧ ∀ held, content = some held → held.value.Storable :=
      fun _ => Json.mapM_eq_some_iff fun held hheld _ =>
        StoredContent.reread?_eq_some_iff (hlibraryContent held hheld)
    rw [reread?_node, forall_mem_numbers_node]
    simp only [Option.bind_eq_bind, Option.bind_eq_some_iff, hleft, hright, hcontent,
      Option.some.injEq]
    constructor
    · rintro ⟨_, ⟨rfl, hfiniteLeft⟩, _, ⟨rfl, hfiniteRight⟩, _, ⟨rfl, hfiniteContent⟩, rfl⟩
      exact ⟨rfl, hfiniteLeft, hfiniteRight, hfiniteContent⟩
    · rintro ⟨rfl, hfiniteLeft, hfiniteRight, hfiniteContent⟩
      exact ⟨left, ⟨rfl, hfiniteLeft⟩, right, ⟨rfl, hfiniteRight⟩, content,
        ⟨rfl, hfiniteContent⟩, rfl⟩

/-- A side that is read is read within the levels that are left for it. -/
theorem depth_side_le {levels : Nat} {side : Option StoredNode} {found : Option StoredNode}
    (h : Json.optionalPart? (ofJson? levels) ((side.map toJson).map Json.reread) = some found)
    (hside : ∀ node, side = some node → ∀ node', ofJson? levels node.toJson.reread = some node' →
      node.toJson.depth ≤ levels) :
    (side.map toJson).elim 0 Json.depth ≤ levels := by
  cases side with
  | none => exact Nat.zero_le levels
  | some node =>
    rw [Option.map_some, Option.map_some, optionalPart?_reread, Option.map_eq_some_iff] at h
    obtain ⟨node', hread, -⟩ := h
    exact hside node rfl node' hread

/-- A content that is read needs a level. -/
theorem depth_content_le {levels : Nat} {content found : Option StoredContent}
    (h : Json.optionalPart? (StoredContent.ofJson? levels) (some (contentJson content).reread) =
      some found) :
    (contentJson content).depth ≤ levels := by
  cases content with
  | none => exact Nat.zero_le levels
  | some content =>
    cases levels with
    | zero =>
      rw [contentJson, StoredContent.toJson, Json.optionalPart?_reread] at h
      simp [StoredContent.ofJson?] at h
    | succ levels =>
      rw [contentJson, StoredContent.depth_toJson]
      exact Nat.le_add_left 1 levels

/-- The document of a node is read with no fewer levels than it nests. -/
theorem depth_le_of_ofJson? {stored stored' : StoredNode} {levels : Nat}
    (h : ofJson? levels stored.toJson.reread = some stored') : stored.toJson.depth ≤ levels := by
  induction stored using induction generalizing stored' levels with
  | node kind left right content ihLeft ihRight =>
    cases levels with
    | zero => simp [ofJson?] at h
    | succ levels =>
      rw [toJson_node, reread_jsonOfParts, ofJson?, parts?_jsonOfParts] at h
      simp only [Option.bind_eq_bind, Option.bind_some, Option.bind_eq_some_iff] at h
      obtain ⟨kind', -, left', hleft, right', hright, content', hcontent, -⟩ := h
      have hleftDepth := depth_side_le hleft fun side hside _ => ihLeft side hside
      have hrightDepth := depth_side_le hright fun side hside _ => ihRight side hside
      have hcontentDepth := depth_content_le hcontent
      rw [toJson_node, depth_jsonOfParts]
      omega

/-- The text of the document of a node is read as the node with its literals read back, and that
only if it nests no deeper than texts of documents may. -/
theorem ofText?_toText_eq_some_iff {stored stored' : StoredNode} :
    ofText? stored.toJson.toText = some stored' ↔
      stored.reread? = some stored' ∧ stored.toJson.depth ≤ Json.maxNesting := by
  constructor
  · intro h
    have hread : ofJson? Json.maxNesting stored.toJson.reread = some stored' := by
      rw [ofText?, Json.ofText?_toText] at h
      exact h
    exact ⟨reread?_of_ofText? h, depth_le_of_ofJson? hread⟩
  · rintro ⟨hread, hdepth⟩
    rw [ofText?_toText stored hdepth, hread]

end StoredNode

/-- Where the JSON texts of the finite numbers in a node bring them back, what is read from the text
of the document of the node is that node and no other. It is read iff the text nests no deeper than
texts of documents may and all numbers in the node are finite. -/
theorem stored_node_is_read_back_iff (stored : StoredNode)
    (hlibrary : ∀ value ∈ stored.numbers, value.isFinite = true → Json.ReadsBack value) :
    ∀ stored', StoredNode.ofText? stored.toJson.toText = some stored' ↔
      stored' = stored ∧ stored.toJson.depth ≤ Json.maxNesting ∧
        ∀ value ∈ stored.numbers, value.isFinite = true := by
  intro stored'
  rw [StoredNode.ofText?_toText_eq_some_iff, StoredNode.reread?_eq_some_iff hlibrary]
  constructor
  · rintro ⟨⟨hequal, hfinite⟩, hdepth⟩
    exact ⟨hequal, hdepth, hfinite⟩
  · rintro ⟨hequal, hdepth, hfinite⟩
    exact ⟨⟨hequal, hfinite⟩, hdepth⟩

/-- A node of no known kind without a left side is read back, and so is the test without a content
that is its right side. If its number is not finite, nothing is read. -/
theorem node_with_missing_parts_is_read_back :
    let holding (value : Binary64) : StoredNode :=
      .node "\"leaf\"" none (some (.node StoredNode.testKind none none none))
        (some ⟨"", "~\n", .number value⟩)
    StoredNode.ofText? (holding (.ofNat 42)).toJson.toText = some (holding (.ofNat 42)) ∧
      ∀ stored, StoredNode.ofText? (holding (.infinite false)).toJson.toText ≠ some stored := by
  intro holding
  have hnumbers : ∀ value, (holding value).numbers = [value] := fun _ => rfl
  have hlibrary : ∀ value, (value.isFinite = true → Json.ReadsBack value) →
      ∀ held ∈ (holding value).numbers, held.isFinite = true → Json.ReadsBack held := by
    intro value hback held hmem
    rw [hnumbers, List.mem_singleton] at hmem
    rwa [hmem]
  constructor
  · have hback : Json.ReadsBack (.ofNat 42) :=
      Literal.reread?_number_eq_self_iff.mp (by decide +kernel)
    have hdepth : (holding (.ofNat 42)).toJson.depth ≤ Json.maxNesting := by decide +kernel
    have hread := stored_node_is_read_back_iff (holding (.ofNat 42)) (hlibrary _ fun _ => hback)
    refine (hread _).mpr ⟨rfl, hdepth, ?_⟩
    intro value hmem
    rw [hnumbers, List.mem_singleton] at hmem
    rw [hmem]
    exact hback.isFinite
  · intro stored h
    have hread := stored_node_is_read_back_iff (holding (.infinite false))
      (hlibrary _ fun hfinite => absurd hfinite (by decide))
    obtain ⟨-, -, hfinite⟩ := (hread stored).mp h
    exact absurd (hfinite (.infinite false) List.mem_cons_self) (by decide)

end Criteria
