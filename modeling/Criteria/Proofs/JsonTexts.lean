import Criteria.Json.Reader
import Criteria.Proofs.Numerals
import Criteria.Proofs.Quotes

/-!
# JSON texts are read back

The text of every JSON value is read. What it is read as is known, too (`Json.reread`): the same
value, but for its numbers, which are those that the reader makes of their texts, and null where
they are not finite.
-/

namespace Criteria.Json

open Number (Binary64)
open Text (Stops ne_of_class stops_nil stops_cons)

/-! ## What is read back -/

mutual

/-- The value that the text of a value is read as. -/
def reread : Json → Json
  | null => null
  | boolean value => boolean value
  | integer value => (Numeral.ofInt value).toJson
  | real value =>
    match value.toDecimal? with
    | some decimal => real (Numeral.ofDecimal decimal).real
    | none => null
  | text value => ofString (value.getD "")
  | array items => array (rereadItems items)
  | object members => object (rereadMembers members)

/-- The items that the texts of items are read as. -/
def rereadItems : List Json → List Json
  | [] => []
  | item :: items => item.reread :: rereadItems items

/-- The members that the texts of members are read as. -/
def rereadMembers : List (Option String × Json) → List (Option String × Json)
  | [] => []
  | (name, value) :: members => (some (name.getD ""), value.reread) :: rereadMembers members

end

/-! ## Reading by the first character -/

theorem spanValue?_quote (levels : Nat) (cs : List Char) :
    spanValue? (levels + 1) ('"' :: cs) =
      (Quoted.span? cs).map fun found => (.text found.1, found.2) := by
  rfl

theorem skipBlanks_cons {c : Char} (h : isBlank c = false) (cs : List Char) :
    skipBlanks (c :: cs) = c :: cs := by
  rw [skipBlanks, List.dropWhile_cons_of_neg (by simp [h])]

theorem isBlank_of_starts {c : Char} (h : Numeral.starts c = true) : isBlank c = false := by
  have hspace : c ≠ ' ' := ne_of_class h (by decide)
  have htab : c ≠ '\t' := ne_of_class h (by decide)
  have hline : c ≠ '\n' := ne_of_class h (by decide)
  have hreturn : c ≠ '\r' := ne_of_class h (by decide)
  simp [isBlank, hspace, htab, hline, hreturn]

/-- What starts with a sign or a digit is a number. -/
theorem spanValue?_numeral {c : Char} (hc : Numeral.starts c = true) (levels : Nat)
    (cs : List Char) :
    spanValue? (levels + 1) (c :: cs) =
      (Numeral.span? (c :: cs)).map fun found => (found.1.toJson, found.2) := by
  rw [spanValue?, skipBlanks_cons (isBlank_of_starts hc)]
  split
  · next h => exact absurd (List.cons.inj h).1 (ne_of_class hc (by decide))
  · next h => exact absurd (List.cons.inj h).1 (ne_of_class hc (by decide))
  · next h => exact absurd (List.cons.inj h).1 (ne_of_class hc (by decide))
  · next h => exact absurd (List.cons.inj h).1 (ne_of_class hc (by decide))
  · next h => exact absurd (List.cons.inj h).1 (ne_of_class hc (by decide))
  · next h => exact absurd (List.cons.inj h).1 (ne_of_class hc (by decide))
  · rfl

theorem spanValue?_bracket (levels : Nat) (cs : List Char) :
    spanValue? (levels + 1) ('[' :: cs) =
      match skipBlanks cs with
      | ']' :: rest => some (array [], rest)
      | _ => (spanItems? levels cs).map fun (items, rest) => (array items, rest) := rfl

theorem spanValue?_opening {cs : List Char} (hcs : ∀ rest, skipBlanks cs ≠ ']' :: rest)
    (levels : Nat) :
    spanValue? (levels + 1) ('[' :: cs) =
      (spanItems? levels cs).map fun found => (.array found.1, found.2) := by
  rw [spanValue?_bracket]
  split
  · next rest h => exact absurd h (hcs rest)
  · rfl

theorem spanValue?_brace (levels : Nat) (cs : List Char) :
    spanValue? (levels + 1) ('{' :: cs) =
      match skipBlanks cs with
      | '}' :: rest => some (object [], rest)
      | _ => (spanMembers? levels cs).map fun (members, rest) => (object members, rest) := rfl

/-- An object that does not end at once has a member. -/
theorem spanValue?_member {cs : List Char} (hcs : ∀ rest, skipBlanks cs ≠ '}' :: rest)
    (levels : Nat) :
    spanValue? (levels + 1) ('{' :: cs) =
      (spanMembers? levels cs).map fun found => (.object found.1, found.2) := by
  rw [spanValue?_brace]
  split
  · next rest h => exact absurd h (hcs rest)
  · rfl

/-! ## Items and members -/

theorem spanItems?_last {levels : Nat} {cs rest : List Char} {item : Json}
    (h : spanValue? levels cs = some (item, ']' :: rest)) :
    spanItems? (levels + 1) cs = some ([item], rest) := by
  rw [spanItems?, h]
  rfl

theorem spanItems?_next {levels : Nat} {cs behind rest : List Char} {item : Json}
    {items : List Json} (h : spanValue? levels cs = some (item, ',' :: behind))
    (hitems : spanItems? levels behind = some (items, rest)) :
    spanItems? (levels + 1) cs = some (item :: items, rest) := by
  rw [spanItems?, h]
  show ((spanItems? levels behind).bind fun found => some (item :: found.1, found.2)) = _
  rw [hitems]
  rfl

theorem spanName?_quote (cs : List Char) :
    spanName? ('"' :: cs) =
      match Quoted.span? cs with
      | some (name, rest) =>
        match skipBlanks rest with
        | ':' :: rest => some (name, rest)
        | _ => none
      | none => none := rfl

/-- The name of a member is read up to the colon behind it. -/
theorem spanName?_write (name : String) {behind cs : List Char}
    (hcolon : skipBlanks behind = ':' :: cs) :
    spanName? (Quoted.write name.toList ++ behind) = some (some name, cs) := by
  have hquoted := Quoted.span?_write_append name behind
  rw [Quoted.write, List.cons_append, List.cons_append, List.append_assoc, List.singleton_append,
    spanName?_quote, hquoted]
  simp only [hcolon]

theorem spanMembers?_last {levels : Nat} {cs behindName behindValue rest : List Char}
    {name : Option String} {value : Json} (hname : spanName? cs = some (name, behindName))
    (hvalue : spanValue? levels behindName = some (value, behindValue))
    (hend : skipBlanks behindValue = '}' :: rest) :
    spanMembers? (levels + 1) cs = some ([(name, value)], rest) := by
  rw [spanMembers?]
  simp only [Option.bind_eq_bind, hname, hvalue, hend, Option.bind_some]

theorem spanMembers?_next {levels : Nat} {cs behindName behindValue behind rest : List Char}
    {name : Option String} {value : Json} {members : List (Option String × Json)}
    (hname : spanName? cs = some (name, behindName))
    (hvalue : spanValue? levels behindName = some (value, behindValue))
    (hcomma : skipBlanks behindValue = ',' :: behind)
    (hmembers : spanMembers? levels behind = some (members, rest)) :
    spanMembers? (levels + 1) cs = some ((name, value) :: members, rest) := by
  rw [spanMembers?]
  simp only [Option.bind_eq_bind, hname, hvalue, hcomma, hmembers, Option.bind_some]

/-! ## Numbers -/

theorem spanValue?_source_append {n : Numeral} (h : n.WellFormed) {rest : List Char}
    (hrest : Stops Numeral.continues rest) (levels : Nat) :
    spanValue? (levels + 1) (n.source ++ rest) = some (n.toJson, rest) := by
  obtain ⟨c, cs, hcons, hc⟩ := Numeral.source_eq_cons h
  have hspan := Numeral.span?_source_append h hrest
  rw [hcons, List.cons_append] at hspan ⊢
  rw [spanValue?_numeral hc, hspan]
  rfl

/-- The text of a number is read as the number that the reader makes of it. -/
theorem spanValue?_real (value : Binary64) {rest : List Char}
    (hrest : Stops Numeral.continues rest) (levels : Nat) :
    spanValue? (levels + 1) (realText value ++ rest) = some ((real value).reread, rest) := by
  cases value with
  | nan => rfl
  | infinite negative => rfl
  | finite negative rank =>
    have hwellFormed := Numeral.wellFormed_ofDecimal
      (Number.isNormal_shortestDecimal .even negative rank)
    have hspan := spanValue?_source_append hwellFormed hrest levels
    rw [Numeral.source_ofDecimal, Numeral.toJson_ofDecimal] at hspan
    exact hspan

/-- The text of a value starts with no blank, and with nothing that ends an array. -/
theorem write_eq_cons (json : Json) :
    ∃ c cs, json.write = c :: cs ∧ isBlank c = false ∧ c ≠ ']' := by
  have hnumeral : ∀ {n : Numeral}, n.WellFormed →
      ∃ c cs, n.source = c :: cs ∧ isBlank c = false ∧ c ≠ ']' := by
    intro n h
    obtain ⟨c, cs, hcons, hc⟩ := Numeral.source_eq_cons h
    exact ⟨c, cs, hcons, isBlank_of_starts hc, ne_of_class hc (by decide)⟩
  cases json with
  | null => exact ⟨'n', _, rfl, rfl, by decide⟩
  | boolean value => cases value <;> exact ⟨_, _, rfl, rfl, by decide⟩
  | integer value =>
    rw [write, ← Numeral.source_ofInt]
    exact hnumeral (Numeral.wellFormed_ofInt value)
  | real value =>
    cases value with
    | nan => exact ⟨'n', _, rfl, rfl, by decide⟩
    | infinite negative => exact ⟨'n', _, rfl, rfl, by decide⟩
    | finite negative rank =>
      have hwellFormed := Numeral.wellFormed_ofDecimal
        (Number.isNormal_shortestDecimal .even negative rank)
      have hsource := hnumeral hwellFormed
      rw [Numeral.source_ofDecimal] at hsource
      exact hsource
  | text value => exact ⟨'"', _, rfl, rfl, by decide⟩
  | array items => cases items <;> exact ⟨'[', _, rfl, rfl, by decide⟩
  | object members => cases members <;> exact ⟨'{', _, rfl, rfl, by decide⟩

theorem length_writeItems_pos (items : List Json) : 0 < (writeItems items).length := by
  cases items <;> simp [writeItems]

theorem length_writeMembers_pos (members : List (Option String × Json)) :
    0 < (writeMembers members).length := by
  cases members <;> simp [writeMembers]

theorem stops_writeItems (items : List Json) (rest : List Char) :
    Stops Numeral.continues (writeItems items ++ rest) := by
  cases items <;> exact stops_cons rfl

theorem stops_writeMembers (members : List (Option String × Json)) (rest : List Char) :
    Stops Numeral.continues (writeMembers members ++ rest) := by
  cases members <;> exact stops_cons rfl

mutual

/-- The text of a value is read, with as many levels as it has characters. -/
theorem spanValue?_write : ∀ (json : Json) {levels : Nat} {rest : List Char},
    json.write.length ≤ levels → Stops Numeral.continues rest →
    spanValue? (levels + 1) (json.write ++ rest) = some (json.reread, rest)
  | null, _, _, _, _ => rfl
  | boolean true, _, _, _, _ => rfl
  | boolean false, _, _, _, _ => rfl
  | integer value, levels, rest, _, hrest => by
    rw [write, ← Numeral.source_ofInt, reread]
    exact spanValue?_source_append (Numeral.wellFormed_ofInt value) hrest levels
  | real value, levels, _, _, hrest => spanValue?_real value hrest levels
  | text value, levels, rest, _, _ => by
    have hquoted := Quoted.span?_write_append (value.getD "") rest
    rw [write, Quoted.write, List.cons_append, List.cons_append, List.append_assoc,
      spanValue?_quote, List.singleton_append, hquoted]
    rfl
  | array [], _, _, _, _ => rfl
  | array (item :: items), levels, rest, hlevels, _ => by
    -- one level is spent on the items and one on the first of them
    rw [write, List.cons_append, List.length_cons, List.length_append] at hlevels
    have hpos := length_writeItems_pos items
    obtain ⟨levels, rfl⟩ : ∃ levels', levels = levels' + 2 := ⟨levels - 2, by omega⟩
    have hitem : spanValue? (levels + 1) (item.write ++ (writeItems items ++ rest)) =
        some (item.reread, writeItems items ++ rest) :=
      spanValue?_write item (by omega) (stops_writeItems items rest)
    have hitems := spanItems?_writeItems items hitem (by omega)
    have hfirst : ∀ rest', skipBlanks (item.write ++ (writeItems items ++ rest)) ≠
        ']' :: rest' := by
      intro rest' heq
      obtain ⟨c, cs, hcons, hblank, hc⟩ := write_eq_cons item
      rw [hcons, List.cons_append, skipBlanks_cons hblank] at heq
      exact hc (List.cons.inj heq).1
    rw [write, List.cons_append, List.cons_append, List.append_assoc,
      spanValue?_opening hfirst, hitems]
    rfl
  | object [], _, _, _, _ => rfl
  | object ((name, value) :: members), levels, rest, hlevels, _ => by
    rw [write] at hlevels
    simp only [List.cons_append, List.length_cons, List.length_append] at hlevels
    have hpos := length_writeMembers_pos members
    obtain ⟨levels, rfl⟩ : ∃ levels', levels = levels' + 2 := ⟨levels - 2, by omega⟩
    have hvalue : spanValue? (levels + 1) (value.write ++ (writeMembers members ++ rest)) =
        some (value.reread, writeMembers members ++ rest) :=
      spanValue?_write value (by omega) (stops_writeMembers members rest)
    have hmembers := spanMembers?_writeMembers members (name.getD "") hvalue (by omega)
    have hsource : (object ((name, value) :: members)).write ++ rest =
        '{' :: (Quoted.write (name.getD "").toList ++
          ':' :: (value.write ++ (writeMembers members ++ rest))) := by
      simp [write]
    have hname : ∀ rest', skipBlanks (Quoted.write (name.getD "").toList ++
        ':' :: (value.write ++ (writeMembers members ++ rest))) ≠ '}' :: rest' := by
      intro rest' heq
      exact absurd (List.cons.inj heq).1 (by decide)
    rw [hsource, spanValue?_member hname, hmembers]
    rfl

/-- The items behind one that has been read are read to the end of the array. -/
theorem spanItems?_writeItems : ∀ (items : List Json) {levels : Nat} {cs rest : List Char}
    {item : Json}, spanValue? levels cs = some (item, writeItems items ++ rest) →
    (writeItems items).length ≤ levels →
    spanItems? (levels + 1) cs = some (item :: rereadItems items, rest)
  | [], _, _, _, _, hitem, _ => spanItems?_last hitem
  | next :: items, levels, _, rest, _, hitem, hlevels => by
    simp only [writeItems, List.cons_append, List.length_cons, List.length_append] at hlevels
    have hpos := length_writeItems_pos items
    obtain ⟨levels, rfl⟩ : ∃ levels', levels = levels' + 2 := ⟨levels - 2, by omega⟩
    have hnext : spanValue? (levels + 1) (next.write ++ (writeItems items ++ rest)) =
        some (next.reread, writeItems items ++ rest) :=
      spanValue?_write next (by omega) (stops_writeItems items rest)
    rw [writeItems, List.cons_append, List.cons_append, List.append_assoc] at hitem
    exact spanItems?_next hitem (spanItems?_writeItems items hnext (by omega))

/-- The members behind one whose value has been read are read to the end of the object. -/
theorem spanMembers?_writeMembers : ∀ (members : List (Option String × Json)) (name : String)
    {levels : Nat} {cs rest : List Char} {value : Json},
    spanValue? levels cs = some (value, writeMembers members ++ rest) →
    (writeMembers members).length ≤ levels →
    spanMembers? (levels + 1) (Quoted.write name.toList ++ ':' :: cs) =
      some ((some name, value) :: rereadMembers members, rest)
  | [], name, _, _, _, _, hvalue, _ => spanMembers?_last (spanName?_write name rfl) hvalue rfl
  | (next, value') :: members, name, levels, _, rest, _, hvalue, hlevels => by
    simp only [writeMembers, List.cons_append, List.length_cons, List.length_append] at hlevels
    have hpos := length_writeMembers_pos members
    obtain ⟨levels, rfl⟩ : ∃ levels', levels = levels' + 2 := ⟨levels - 2, by omega⟩
    have hnext : spanValue? (levels + 1) (value'.write ++ (writeMembers members ++ rest)) =
        some (value'.reread, writeMembers members ++ rest) :=
      spanValue?_write value' (by omega) (stops_writeMembers members rest)
    have hsource : writeMembers ((next, value') :: members) ++ rest =
        ',' :: (Quoted.write (next.getD "").toList ++
          ':' :: (value'.write ++ (writeMembers members ++ rest))) := by
      simp [writeMembers]
    rw [hsource] at hvalue
    exact spanMembers?_next (spanName?_write name rfl) hvalue rfl
      (spanMembers?_writeMembers members (next.getD "") hnext (by omega))

end

/-- The text of every value is read. -/
theorem ofText?_toText (json : Json) : ofText? json.toText = some json.reread := by
  have hspan := spanValue?_write json (Nat.le_refl _) (stops_nil (p := Numeral.continues))
  rw [List.append_nil] at hspan
  rw [ofText?, toText, String.toList_ofList, String.length_ofList, hspan]
  rfl

/-! ## Members and numbers -/

theorem rereadMembers_map (members : List (String × Json)) :
    rereadMembers (members.map fun member => (some member.1, member.2)) =
      members.map fun member => (some member.1, member.2.reread) := by
  induction members with
  | nil => rfl
  | cons member members ih => simp [rereadMembers, ih]

theorem reread_ofMembers (members : List (String × Json)) :
    (ofMembers members).reread =
      ofMembers (members.map fun member => (member.1, member.2.reread)) := by
  rw [ofMembers, reread, rereadMembers_map, ofMembers, List.map_map]
  rfl

theorem reread_ofString (text : String) : (ofString text).reread = ofString text := by
  rw [ofString, reread]
  rfl

end Criteria.Json
