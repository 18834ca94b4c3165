import Criteria.Proofs.Documents

/-!
# Members in another order

The members of an object have no order of their own: a text gives them in some order, and a map
holds them in the order of their names. Entries whose names differ are put in order without loss,
and what is read from the parts of an object does not depend on the order of its members. So a
value can be arranged, its objects keeping their members, and is read as before; holding all objects
as maps is a way of arranging (`Json.arranges_settle`).
-/

namespace Criteria

open Number (Binary64)

/-! ## Entries -/

namespace Entries

variable {α : Type}

theorem insert_perm {name : String} {value : α} {entries : List (String × α)}
    (h : name ∉ entries.map (·.1)) :
    (insert name value entries).Perm ((name, value) :: entries) := by
  induction entries with
  | nil => exact .refl _
  | cons head rest ih =>
    rw [List.map_cons, List.mem_cons, not_or] at h
    rw [insert]
    split
    · exact .refl _
    · rw [if_neg h.1]
      exact ((ih h.2).cons head).trans (.swap _ _ _)

/-- Entries with different names are put in order without loss. -/
theorem ofList_perm {entries : List (String × α)} (h : (entries.map (·.1)).Nodup) :
    (ofList entries).Perm entries := by
  have grow : ∀ more held : List (String × α), ((held ++ more).map (·.1)).Nodup →
      (more.foldl (fun held entry => insert entry.1 entry.2 held) held).Perm (held ++ more) := by
    intro more
    induction more with
    | nil => exact fun held _ => by rw [List.append_nil]; exact .refl held
    | cons entry more ih =>
      intro held hnodup
      have hmiddle : (entry :: (held ++ more)).Perm (held ++ entry :: more) :=
        List.perm_middle.symm
      have hcons : ((entry :: (held ++ more)).map (·.1)).Nodup :=
        (hmiddle.map _).nodup_iff.mpr hnodup
      have hnew : entry.1 ∉ held.map (·.1) := by
        intro hmem
        refine (List.nodup_cons.mp hcons).1 ?_
        rw [List.map_append]
        exact List.mem_append_left _ hmem
      have hinsert : (insert entry.1 entry.2 held ++ more).Perm (entry :: (held ++ more)) :=
        (insert_perm hnew).append_right more
      have hgrown := ih (insert entry.1 entry.2 held) ((hinsert.map _).nodup_iff.mpr hcons)
      exact hgrown.trans (hinsert.trans hmiddle)
  exact grow entries [] h

theorem nodup_of_increasing {entries : List (String × α)} (h : Increasing entries) :
    (entries.map (·.1)).Nodup := by
  rw [List.Nodup, List.pairwise_map]
  refine h.imp ?_
  intro first second hlt heq
  exact absurd (heq ▸ hlt) (String.lt_irrefl _)

/-- Entries that are a rearrangement of entries in order are put into this order. -/
theorem ofList_eq_of_perm {entries sorted : List (String × α)} (hsorted : Increasing sorted)
    (hperm : entries.Perm sorted) : ofList entries = sorted := by
  have hnodup : (entries.map (·.1)).Nodup :=
    (hperm.map _).nodup_iff.mpr (nodup_of_increasing hsorted)
  refine List.Perm.eq_of_pairwise ?_ (increasing_ofList entries) hsorted
    ((ofList_perm hnodup).trans hperm)
  intro first second _ _ hlt hgt
  exact absurd (String.lt_trans hlt hgt) (String.lt_irrefl _)

end Entries

/-! ## Objects -/

namespace Json

/-- Whether a member is the only one with its name does not depend on the order. -/
theorem uniqueMember?_perm {members members' : List (String × Json)}
    (hperm : members.Perm members') (name : String) :
    uniqueMember? members name = uniqueMember? members' name := by
  have hfilter : (members.filter (·.1 = name)).Perm (members'.filter (·.1 = name)) :=
    hperm.filter _
  rw [uniqueMember?, uniqueMember?]
  cases hfound : members.filter (·.1 = name) with
  | nil =>
    rw [hfound] at hfilter
    rw [hfilter.symm.eq_nil]
  | cons first rest =>
    rw [hfound] at hfilter
    cases rest with
    | nil => rw [List.perm_singleton.mp hfilter.symm]
    | cons second rest =>
      -- there are several of them on the other side, too
      have hlength := hfilter.length_eq
      cases hfound' : members'.filter (·.1 = name) with
      | nil => simp [hfound'] at hlength
      | cons first' rest' =>
        cases rest' with
        | nil => simp [hfound'] at hlength
        | cons second' rest' => rfl

theorem parts?_ofMembers_perm {members members' : List (String × Json)}
    (hperm : members.Perm members') (names : List String) :
    (ofMembers members).parts? names = (ofMembers members').parts? names := by
  rw [parts?_ofMembers, parts?_ofMembers]
  exact congrArg (names.mapM ·) (funext (uniqueMember?_perm hperm))

/-- An object nests deeper than its members. -/
theorem depth_lt_of_mem {members : List (String × Json)} {name : String} {value : Json}
    (h : (name, value) ∈ members) : value.depth < (ofMembers members).depth := by
  have hle : value.depth ≤
      depthOfMembers (members.map fun member => (some member.1, member.2)) := by
    induction members with
    | nil => simp at h
    | cons first rest ih =>
      rw [List.map_cons, depthOfMembers]
      rcases List.mem_cons.mp h with rfl | hrest
      · exact Nat.le_max_left _ _
      · exact Nat.le_trans (ih hrest) (Nat.le_max_right _ _)
  rw [ofMembers, depth]
  omega

/-! ## Arranged values -/

/-- A way to arrange values. Texts, numbers and booleans stay as they are, and an object with
different names keeps its members, each of them arranged, in some order. -/
structure Arranges (arrange : Json → Json) : Prop where
  ofString : ∀ text, arrange (.ofString text) = .ofString text
  ofNumber : ∀ value, arrange (.ofNumber value) = .ofNumber value
  boolean : ∀ value, arrange (.boolean value) = .boolean value
  ofMembers : ∀ members, (members.map (·.1)).Nodup →
    ∃ arranged, arrange (.ofMembers members) = .ofMembers arranged ∧
      arranged.Perm (members.map fun member => (member.1, arrange member.2))

theorem arranges_id : Arranges id where
  ofString _ := rfl
  ofNumber _ := rfl
  boolean _ := rfl
  ofMembers members _ := ⟨members, rfl, by simp⟩

theorem settleMembers_map (members : List (String × Json)) :
    settleMembers (members.map fun member => (some member.1, member.2)) =
      members.map fun member => (member.1, member.2.settle) := by
  induction members with
  | nil => rfl
  | cons member members ih => rw [List.map_cons, settleMembers, ih, List.map_cons]

/-- Holding objects as maps is a way to arrange values. -/
theorem arranges_settle : Arranges settle where
  ofString _ := rfl
  ofNumber value := by
    rw [ofNumber]
    split <;> rfl
  boolean _ := rfl
  ofMembers members hnodup := by
    refine ⟨_, by rw [ofMembers, settle, settleMembers_map], Entries.ofList_perm ?_⟩
    rw [List.map_map]
    exact hnodup

/-- The parts of an arranged object are its parts, arranged. -/
theorem Arranges.parts? {arrange : Json → Json} (h : Arranges arrange)
    {members : List (String × Json)} (hnodup : (members.map (·.1)).Nodup) (names : List String) :
    (arrange (.ofMembers members)).parts? names =
      names.mapM (uniqueMember? (members.map fun member => (member.1, arrange member.2))) := by
  obtain ⟨arranged, harranged, hperm⟩ := h.ofMembers members hnodup
  rw [harranged, parts?_ofMembers_perm hperm, parts?_ofMembers]

/-- An arranged object nests deeper than its members, arranged. -/
theorem Arranges.depth_lt {arrange : Json → Json} (h : Arranges arrange)
    {members : List (String × Json)} (hnodup : (members.map (·.1)).Nodup)
    {name : String} {value : Json} (hmem : (name, value) ∈ members) :
    (arrange value).depth < (arrange (.ofMembers members)).depth := by
  obtain ⟨arranged, harranged, hperm⟩ := h.ofMembers members hnodup
  rw [harranged]
  have hmap : (name, arrange value) ∈ arranged :=
    hperm.mem_iff.mpr (List.mem_map.mpr ⟨_, hmem, rfl⟩)
  exact depth_lt_of_mem hmap

end Json

end Criteria
