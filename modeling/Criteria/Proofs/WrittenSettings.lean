import Mathlib.Data.List.Nodup
import Criteria.Proofs.Documents
import Criteria.Proofs.SpacedObjects
import Criteria.Settings

/-!
# Settings are read as they are written

Any parts of settings, in any order and with any blanks, make a text of settings. It is read as the
settings that have these parts and the defaults besides, unless one of their limits is zero, and no
text at all is read as settings with such a limit (`settings_are_read_as_written`).
-/

namespace Criteria

/-! ## Members with different names -/

namespace Json

theorem filter_name_eq_nil {members : List (String × Json)} {name : String}
    (h : name ∉ members.map (·.1)) : members.filter (·.1 = name) = [] := by
  rw [List.filter_eq_nil_iff]
  intro member hmem hname
  exact h (List.mem_map.mpr ⟨member, hmem, of_decide_eq_true hname⟩)

/-- No member is found by a name that none has. -/
theorem uniqueMember?_of_not_mem {members : List (String × Json)} {name : String}
    (h : name ∉ members.map (·.1)) : uniqueMember? members name = some none := by
  rw [uniqueMember?, filter_name_eq_nil h]

/-- A member is found by its name if all names are different. -/
theorem uniqueMember?_of_mem {members : List (String × Json)} {name : String} {value : Json}
    (hnodup : (members.map (·.1)).Nodup) (hmem : (name, value) ∈ members) :
    uniqueMember? members name = some (some value) := by
  have hfilter : members.filter (·.1 = name) = [(name, value)] := by
    induction members with
    | nil => cases hmem
    | cons member members ih =>
      obtain ⟨hnew, hnodup⟩ := List.nodup_cons.mp hnodup
      rcases List.mem_cons.mp hmem with rfl | hmem
      · rw [List.filter_cons_of_pos (by simp), filter_name_eq_nil hnew]
      · have hne : member.1 ≠ name := by
          rintro rfl
          exact hnew (List.mem_map.mpr ⟨_, hmem, rfl⟩)
        rw [List.filter_cons_of_neg (by simpa using hne), ih hnodup hmem]
  rw [uniqueMember?, hfilter]

end Json

namespace Settings

/-! ## Parts of settings -/

/-- The parts that settings consist of. -/
inductive Part where
  | mode
  | maxNesting
  | maxHeight
  | capacity
deriving DecidableEq

namespace Part

/-- The name of a part in a text of settings. -/
def name : Part → String
  | mode => "mode"
  | maxNesting => "max_depth"
  | maxHeight => "max_tree_depth"
  | capacity => "cache_capacity"

/-- A part of settings as a JSON value. -/
def value (settings : Settings) : Part → Json
  | mode => .ofString (modeWord settings.mode)
  | maxNesting => limitJson settings.maxNesting
  | maxHeight => limitJson settings.maxHeight
  | capacity => limitJson settings.capacity

/-- All parts, in the order in which they are written by default. -/
def all : List Part :=
  [mode, maxNesting, maxHeight, capacity]

theorem name_injective : Function.Injective name := by
  intro part part'
  cases part <;> cases part' <;> decide

end Part

/-- The object that has these parts of settings for its members. -/
def objectOf (settings : Settings) (parts : List Part) : Json :=
  .ofMembers (parts.map fun part => (part.name, part.value settings))

/-- The settings with these parts of some settings, and with the defaults besides. -/
def keeping (settings : Settings) (parts : List Part) : Settings :=
  let default : Settings := {}
  { mode := if .mode ∈ parts then settings.mode else default.mode
    maxNesting := if .maxNesting ∈ parts then settings.maxNesting else default.maxNesting
    maxHeight := if .maxHeight ∈ parts then settings.maxHeight else default.maxHeight
    capacity := if .capacity ∈ parts then settings.capacity else default.capacity }

theorem toJson_eq_objectOf (settings : Settings) : settings.toJson = settings.objectOf Part.all :=
  rfl

theorem keeping_all (settings : Settings) : settings.keeping Part.all = settings :=
  rfl

/-! ## Reading parts -/

theorem modeOfJson?_ofString (mode : Mode) : modeOfJson? (.ofString (modeWord mode)) = some mode := by
  cases mode <;> decide

theorem limitOfJson?_limitJson (limit : UInt64) : limitOfJson? (limitJson limit) = some limit := by
  have hread : limitOfJson? (limitJson limit) =
      if limit.toNat < Nat.pow 2 64 then some (.ofNat limit.toNat) else none := rfl
  rw [hread, if_pos limit.toNat_lt, UInt64.ofNat_toNat]

/-- A part is found in an object of parts iff it is one of them. -/
theorem uniqueMember?_objectOf (settings : Settings) {parts : List Part} (hnodup : parts.Nodup)
    (part : Part) :
    Json.uniqueMember? (parts.map fun part => (part.name, part.value settings)) part.name =
      some (if part ∈ parts then some (part.value settings) else none) := by
  have hnames : (parts.map fun part => (part.name, part.value settings)).map (·.1) =
      parts.map Part.name := by
    rw [List.map_map]
    rfl
  split
  · next hmem =>
    refine Json.uniqueMember?_of_mem ?_ (List.mem_map.mpr ⟨part, hmem, rfl⟩)
    rw [hnames]
    exact hnodup.map Part.name_injective
  · next hmem =>
    refine Json.uniqueMember?_of_not_mem ?_
    rw [hnames, List.mem_map_of_injective Part.name_injective]
    exact hmem

theorem partWithDefault?_ite {α : Type} {default value : α} {read : Json → Option α} {json : Json}
    (hread : read json = some value) (p : Prop) [Decidable p] :
    Json.partWithDefault? default read (if p then some json else none) =
      some (if p then value else default) := by
  split
  · exact hread
  · rfl

/-- The object of some parts is read as the settings that have these parts. -/
theorem ofJson?_objectOf (settings : Settings) {parts : List Part} (hnodup : parts.Nodup) :
    ofJson? (settings.objectOf parts) = some (settings.keeping parts) := by
  have hparts : (settings.objectOf parts).parts? (Part.all.map Part.name) =
      some (Part.all.map fun part => if part ∈ parts then some (part.value settings) else none) := by
    rw [objectOf, Json.parts?_ofMembers]
    simp only [Part.all, List.map_cons, List.map_nil, List.mapM_cons, List.mapM_nil,
      uniqueMember?_objectOf settings hnodup]
    rfl
  rw [ofJson?]
  show ((settings.objectOf parts).parts? (Part.all.map Part.name)).bind _ = _
  rw [hparts]
  simp only [Part.all, List.map_cons, List.map_nil, Option.bind_some, Part.value,
    partWithDefault?_ite (modeOfJson?_ofString settings.mode),
    partWithDefault?_ite (limitOfJson?_limitJson _)]
  rfl

/-! ## Texts of settings -/

theorem reread_limitJson (limit : UInt64) : (limitJson limit).reread = limitJson limit := by
  have hmax : (limit.toNat : Int) < (Nat.pow 2 64 : Int) := Int.ofNat_lt.mpr limit.toNat_lt
  rw [limitJson, Json.reread, Json.Numeral.toJson_ofInt (by omega) hmax]

/-- The text of an object of parts is read as that object. -/
theorem reread_objectOf (settings : Settings) (parts : List Part) :
    (settings.objectOf parts).reread = settings.objectOf parts := by
  have hvalue : ∀ part : Part, (part.value settings).reread = part.value settings := by
    intro part
    cases part with
    | mode => exact Json.reread_ofString _
    | maxNesting => exact reread_limitJson _
    | maxHeight => exact reread_limitJson _
    | capacity => exact reread_limitJson _
  rw [objectOf, Json.reread_ofMembers, List.map_map]
  simp only [Function.comp_def, hvalue]

/-- What is read from a text of an object of parts. -/
theorem ofText_of_objectOf {settings : Settings} {parts : List Part} (hnodup : parts.Nodup)
    {text : String} (htext : Json.ofText? text = some (settings.objectOf parts)) :
    ofText text =
      if (settings.keeping parts).maxNesting = 0 ∨ (settings.keeping parts).maxHeight = 0 then
        .error (.invalidInput .zeroLimit)
      else .ok (settings.keeping parts) := by
  rw [ofText, htext, Option.bind_some, ofJson?_objectOf settings hnodup]

theorem zero_limit_iff {settings : Settings} :
    ¬ (settings.maxNesting = 0 ∨ settings.maxHeight = 0) ↔
      1 ≤ settings.maxNesting ∧ 1 ≤ settings.maxHeight := by
  have hlimit : ∀ limit : UInt64, limit ≠ 0 ↔ 1 ≤ limit :=
    fun limit => UInt64.pos_iff_ne_zero.symm
  rw [not_or, ← ne_eq, ← ne_eq, hlimit, hlimit]

/-- What is read has no limit that is zero. -/
theorem limits_of_ofText {text : String} {settings : Settings} (h : ofText text = .ok settings) :
    1 ≤ settings.maxNesting ∧ 1 ≤ settings.maxHeight := by
  rw [ofText] at h
  split at h
  · cases h
  · split at h
    · cases h
    · next hlimits =>
      obtain rfl := Except.ok.inj h
      exact zero_limit_iff.mp hlimits

/-- Any parts of settings, written in any order and with any blanks, are read as the settings that
have these parts and the defaults besides; where one of their limits is zero, this is reported. All
parts together bring the settings back iff their limits are at least one, and no text is read as
settings with a limit of zero. -/
theorem settings_are_read_as_written (settings : Settings) :
    (∀ (parts : List Part) (written : Json.SpacedObject), parts.Nodup →
      written.toJson = settings.objectOf parts →
      ofText written.toText =
        if (settings.keeping parts).maxNesting = 0 ∨ (settings.keeping parts).maxHeight = 0 then
          .error (.invalidInput .zeroLimit)
        else .ok (settings.keeping parts)) ∧
    (ofText settings.toJson.toText = .ok settings ↔
      1 ≤ settings.maxNesting ∧ 1 ≤ settings.maxHeight) ∧
    ∀ text read, ofText text = .ok read → 1 ≤ read.maxNesting ∧ 1 ≤ read.maxHeight := by
  refine ⟨?_, ?_, fun text read => limits_of_ofText⟩
  · intro parts written hnodup hwritten
    refine ofText_of_objectOf hnodup ?_
    rw [written.ofText?_toText, hwritten, reread_objectOf]
  · have htext : Json.ofText? settings.toJson.toText = some (settings.objectOf Part.all) := by
      rw [Json.ofText?_toText, toJson_eq_objectOf, reread_objectOf]
    have hread := ofText_of_objectOf (by decide) htext
    rw [keeping_all] at hread
    constructor
    · exact limits_of_ofText
    · intro hlimits
      rw [hread, if_neg (zero_limit_iff.mpr hlimits)]

/-- Two parts with spaces between them, one of them the greatest limit there is: the limits that are
left out have their defaults, though those of the settings are zero. A limit of zero that is written
is reported. -/
theorem parts_of_settings_without_limits_are_read :
    ofText r#"{"cache_capacity": 18446744073709551615, "mode": "strict"}"# =
        .ok { mode := .strict, capacity := 18446744073709551615 } ∧
      ofText r#"{"max_tree_depth":0}"# = .error (.invalidInput .zeroLimit) := by
  let settings : Settings := ⟨.strict, 0, 0, 18446744073709551615⟩
  let spaced : Json.SpacedObject :=
    { members :=
        [⟨{ beforeValue := .space }, "cache_capacity", .integer 18446744073709551615⟩,
          ⟨{ beforeName := .space, beforeValue := .space }, "mode", .ofString "strict"⟩] }
  let plain : Json.SpacedObject := { members := [⟨{}, "max_tree_depth", .integer 0⟩] }
  have hread := (settings_are_read_as_written settings).1
  have hspaced := hread [.capacity, .mode] spaced (by decide) rfl
  have hplain := hread [.maxHeight] plain (by decide) rfl
  exact ⟨hspaced, hplain⟩

end Settings

end Criteria
