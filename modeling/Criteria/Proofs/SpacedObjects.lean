import Criteria.Proofs.JsonTexts

/-!
# Objects with blanks

The text of an object may have blanks around each of its marks, names and values. The reader passes
over them, so the object is read as from its text without blanks (`SpacedObject.ofText?_toText`).
-/

namespace Criteria.Json

open Text (Stops stops_cons)

/-! ## Blanks -/

/-- Any number of blanks. -/
structure Blanks where
  chars : List Char
  all_isBlank : ∀ c ∈ chars, isBlank c = true

namespace Blanks

/-- No blanks. -/
def none : Blanks :=
  ⟨[], List.forall_mem_nil _⟩

/-- One space. -/
def space : Blanks :=
  ⟨[' '], List.forall_mem_singleton.mpr rfl⟩

theorem skipBlanks_append (blanks : Blanks) (cs : List Char) :
    skipBlanks (blanks.chars ++ cs) = skipBlanks cs :=
  List.dropWhile_append_of_pos blanks.all_isBlank

theorem spanName?_append (blanks : Blanks) (cs : List Char) :
    spanName? (blanks.chars ++ cs) = spanName? cs := by
  rw [spanName?, spanName?, blanks.skipBlanks_append]

theorem spanValue?_append (blanks : Blanks) (levels : Nat) (cs : List Char) :
    spanValue? levels (blanks.chars ++ cs) = spanValue? levels cs := by
  cases levels with
  | zero => rfl
  | succ levels => rw [spanValue?, spanValue?, blanks.skipBlanks_append]

theorem spanMembers?_append (blanks : Blanks) (levels : Nat) (cs : List Char) :
    spanMembers? levels (blanks.chars ++ cs) = spanMembers? levels cs := by
  cases levels with
  | zero => rfl
  | succ levels => rw [spanMembers?, spanMembers?, blanks.spanName?_append]

/-- A number does not go on with a blank. -/
theorem stops_append (blanks : Blanks) {c : Char} (hc : Numeral.continues c = false)
    (rest : List Char) : Stops Numeral.continues (blanks.chars ++ c :: rest) := by
  have hfirst : ∀ d ∈ blanks.chars, Numeral.continues d = false := by
    intro d hd
    have hblank := blanks.all_isBlank d hd
    simp only [isBlank, Bool.or_eq_true, decide_eq_true_eq] at hblank
    rcases hblank with ((rfl | rfl) | rfl) | rfl <;> rfl
  cases hchars : blanks.chars with
  | nil => exact stops_cons hc
  | cons d chars =>
    rw [hchars] at hfirst
    exact stops_cons (hfirst d List.mem_cons_self)

end Blanks

/-! ## Members -/

/-- The blanks around the name of a member and around its value. -/
structure Spacing where
  beforeName : Blanks := .none
  behindName : Blanks := .none
  beforeValue : Blanks := .none
  behindValue : Blanks := .none

/-- A member as it is written, with the blanks in it. -/
structure SpacedMember extends Spacing where
  name : String
  value : Json

namespace SpacedMember

/-- The text of a member. -/
def write (member : SpacedMember) : List Char :=
  member.beforeName.chars ++ (Quoted.write member.name.toList ++ (member.behindName.chars ++
    ':' :: (member.beforeValue.chars ++ (member.value.write ++ member.behindValue.chars))))

/-- A member is longer than its value, by the marks around its name and the colon behind it. -/
theorem length_value_lt (member : SpacedMember) :
    member.value.write.length + 2 < member.write.length := by
  simp only [write, Quoted.write, List.length_append, List.length_cons, List.length_nil]
  omega

/-- The text of a member starts with a quotation mark, but for blanks. -/
theorem skipBlanks_write_append (member : SpacedMember) (rest : List Char) :
    ∃ cs, skipBlanks (member.write ++ rest) = '"' :: cs := by
  rw [write, List.append_assoc, member.beforeName.skipBlanks_append]
  exact ⟨_, rfl⟩

/-- The name of a member is read up to its value, and the value up to the mark behind the member. -/
theorem span_write_append (member : SpacedMember) {levels : Nat}
    (h : member.value.write.length < levels) (mark : Char) (hblank : isBlank mark = false)
    (hmark : Numeral.continues mark = false) (rest : List Char) :
    ∃ behindName behindValue,
      spanName? (member.write ++ mark :: rest) = some (some member.name, behindName) ∧
      spanValue? levels behindName = some (member.value.reread, behindValue) ∧
      skipBlanks behindValue = mark :: rest := by
  obtain ⟨levels, rfl⟩ : ∃ count, levels = count + 1 := ⟨levels - 1, by omega⟩
  let behindValue := member.behindValue.chars ++ mark :: rest
  let behindName := member.beforeValue.chars ++ (member.value.write ++ behindValue)
  have hvalue : spanValue? (levels + 1) (member.value.write ++ behindValue) =
      some (member.value.reread, behindValue) :=
    spanValue?_write member.value (by omega) (member.behindValue.stops_append hmark rest)
  refine ⟨behindName, behindValue, ?_, ?_, ?_⟩
  · have hsource : member.write ++ mark :: rest = member.beforeName.chars ++
        (Quoted.write member.name.toList ++ (member.behindName.chars ++ ':' :: behindName)) := by
      simp [write, behindName, behindValue]
    rw [hsource, member.beforeName.spanName?_append]
    refine spanName?_write member.name ?_
    rw [member.behindName.skipBlanks_append]
    rfl
  · rw [member.beforeValue.spanValue?_append, hvalue]
  · rw [member.behindValue.skipBlanks_append, skipBlanks_cons hblank]

end SpacedMember

/-! ## Objects -/

/-- An object as it is written, with the blanks in it. -/
structure SpacedObject where
  members : List SpacedMember
  before : Blanks := .none
  inside : Blanks := .none
  behind : Blanks := .none

namespace SpacedObject

/-- The text of an object. -/
def toText (object : SpacedObject) : String :=
  String.ofList (object.before.chars ++ '{' :: (object.inside.chars ++
    ([','].intercalate (object.members.map SpacedMember.write) ++ '}' :: object.behind.chars)))

/-- The object that is written. -/
def toJson (object : SpacedObject) : Json :=
  .ofMembers (object.members.map fun member => (member.name, member.value))

theorem intercalate_write_cons_cons (first second : SpacedMember) (members : List SpacedMember) :
    [','].intercalate ((first :: second :: members).map SpacedMember.write) =
      first.write ++ ',' :: [','].intercalate ((second :: members).map SpacedMember.write) := by
  rw [List.map_cons, List.map_cons, List.intercalate_cons_cons, List.append_assoc]
  rfl

/-- Members with commas between them start with the first of them. -/
theorem exists_intercalate_write_eq (first : SpacedMember) (members : List SpacedMember) :
    ∃ behind, [','].intercalate ((first :: members).map SpacedMember.write) =
      first.write ++ behind := by
  cases members with
  | nil => exact ⟨[], by rw [List.map_singleton, List.intercalate_singleton, List.append_nil]⟩
  | cons second members => exact ⟨_, intercalate_write_cons_cons first second members⟩

/-- Members with commas between them are read up to the end of the object. -/
theorem spanMembers?_intercalate (first : SpacedMember) (members : List SpacedMember)
    {levels : Nat} (rest : List Char)
    (h : ([','].intercalate ((first :: members).map SpacedMember.write)).length ≤ levels) :
    spanMembers? levels
        ([','].intercalate ((first :: members).map SpacedMember.write) ++ '}' :: rest) =
      some ((first :: members).map fun member => (some member.name, member.value.reread), rest) := by
  induction members generalizing first levels with
  | nil =>
    have hvalue := first.length_value_lt
    rw [List.map_singleton, List.intercalate_singleton] at h ⊢
    obtain ⟨levels, rfl⟩ : ∃ count, levels = count + 1 := ⟨levels - 1, by omega⟩
    have hlevels : first.value.write.length < levels := by omega
    obtain ⟨behindName, behindValue, hname, hread, hend⟩ :=
      first.span_write_append hlevels '}' rfl rfl rest
    exact spanMembers?_last hname hread hend
  | cons second members ih =>
    have hvalue := first.length_value_lt
    rw [intercalate_write_cons_cons] at h ⊢
    rw [List.length_append, List.length_cons] at h
    obtain ⟨levels, rfl⟩ : ∃ count, levels = count + 1 := ⟨levels - 1, by omega⟩
    have hlevels : first.value.write.length < levels := by omega
    obtain ⟨behindName, behindValue, hname, hread, hcomma⟩ :=
      first.span_write_append hlevels ',' rfl rfl
        ([','].intercalate ((second :: members).map SpacedMember.write) ++ '}' :: rest)
    rw [List.append_assoc, List.cons_append]
    exact spanMembers?_next hname hread hcomma (ih second (by omega))

theorem reread_toJson (object : SpacedObject) :
    object.toJson.reread =
      .object (object.members.map fun member => (some member.name, member.value.reread)) := by
  rw [toJson, reread_ofMembers, ofMembers, List.map_map, List.map_map]
  rfl

/-- What stands between the braces is read up to the closing one. -/
theorem spanValue?_braces (object : SpacedObject) {levels : Nat} (rest : List Char)
    (h : ([','].intercalate (object.members.map SpacedMember.write)).length ≤ levels) :
    spanValue? (levels + 1) ('{' :: (object.inside.chars ++
        ([','].intercalate (object.members.map SpacedMember.write) ++ '}' :: rest))) =
      some (object.toJson.reread, rest) := by
  rw [reread_toJson]
  cases hmembers : object.members with
  | nil =>
    rw [spanValue?_brace, object.inside.skipBlanks_append]
    rfl
  | cons first members =>
    rw [hmembers] at h
    have hread := spanMembers?_intercalate first members rest h
    have hfirst : ∀ rest', skipBlanks (object.inside.chars ++
        ([','].intercalate ((first :: members).map SpacedMember.write) ++ '}' :: rest)) ≠
          '}' :: rest' := by
      intro rest' heq
      obtain ⟨behind, hbehind⟩ := exists_intercalate_write_eq first members
      obtain ⟨cs, hcs⟩ := first.skipBlanks_write_append (behind ++ '}' :: rest)
      rw [object.inside.skipBlanks_append, hbehind, List.append_assoc, hcs] at heq
      exact absurd (List.cons.inj heq).1 (by decide)
    rw [spanValue?_member hfirst, object.inside.spanMembers?_append, hread]
    rfl

/-- The object is read from every text of it, whatever the blanks. -/
theorem ofText?_toText (object : SpacedObject) :
    ofText? object.toText = some object.toJson.reread := by
  have hlength : ([','].intercalate (object.members.map SpacedMember.write)).length ≤
      object.toText.length := by
    simp only [toText, String.length_ofList, List.length_append, List.length_cons]
    omega
  have hspan := object.spanValue?_braces object.behind.chars hlength
  have hbehind : skipBlanks object.behind.chars = [] := by
    have hblanks := object.behind.skipBlanks_append []
    rwa [List.append_nil] at hblanks
  rw [ofText?, toText, String.toList_ofList, object.before.spanValue?_append, ← toText, hspan]
  simp only [hbehind, if_true]

end SpacedObject

end Criteria.Json
