import Criteria.Json.Quoted

/-!
# Quoted texts are read back

The escapes of a character are read as the code of that character, whatever stands behind them, and
the codes of characters denote those characters, since no character is half of a surrogate pair. So
a text between quotation marks is read back as it was (`span?_write_append`).
-/

namespace Criteria.Json.Quoted

open Number (natInBase?)

/-! ## Codes -/

/-- The letter of a short escape stands for its character, and announces no code unit. -/
theorem shortEscape?_of_lookup {c letter : Char} (h : shortEscapes.lookup c = some letter) :
    letter ≠ 'u' ∧ shortEscape? letter = some c := by
  obtain ⟨before, behind, hsplit, -⟩ := List.lookup_eq_some_iff.mp h
  have hmem : (c, letter) ∈ shortEscapes := by simp [hsplit]
  have htable : shortEscapes.all
      (fun entry => entry.2 != 'u' && shortEscape? entry.2 == some entry.1) = true := by decide
  have hentry := List.all_eq_true.mp htable _ hmem
  simpa using hentry

theorem natInBase?_hex {code : Nat} (h : code < 0x20) :
    natInBase? 16 ['0', '0', Nat.digitChar (code / 16), Nat.digitChar (code % 16)] = some code := by
  have hall : ∀ code < 0x20, natInBase? 16
      ['0', '0', Nat.digitChar (code / 16), Nat.digitChar (code % 16)] = some code := by
    decide +kernel
  exact hall code h

/-- What a character is written as is read as its code. -/
theorem spanCodes?_escape_append (c : Char) (rest : List Char) :
    spanCodes? (escape c ++ rest) =
      (spanCodes? rest).map fun found => (c.toNat :: found.1, found.2) := by
  unfold escape
  split
  · next letter hletter =>
    obtain ⟨hunit, hshort⟩ := shortEscape?_of_lookup hletter
    simp only [List.cons_append, List.nil_append]
    rw [spanCodes?, hshort]
    · cases spanCodes? rest <;> rfl
    · simp [hunit]
  · next hnone =>
    split
    · next hcontrol =>
      simp only [List.cons_append, List.nil_append]
      rw [spanCodes?, natInBase?_hex hcontrol]
      cases spanCodes? rest <;> rfl
    · next hprintable =>
      -- neither the mark nor the backslash stands for itself
      have hmark : c ≠ '"' := by
        rintro rfl
        simp [shortEscapes] at hnone
      have hbackslash : c ≠ '\\' := by
        rintro rfl
        simp [shortEscapes] at hnone
      rw [List.singleton_append, spanCodes?]
      · rw [if_neg (by simp [hprintable, hbackslash])]
        cases spanCodes? rest <;> rfl
      · simpa using hmark
      · simp [hbackslash]
      · simp [hbackslash]

theorem spanCodes?_write (cs rest : List Char) :
    spanCodes? (cs.flatMap escape ++ '"' :: rest) = some (cs.map Char.toNat, rest) := by
  induction cs with
  | nil => simp [spanCodes?]
  | cons c cs ih =>
    rw [List.flatMap_cons, List.append_assoc, spanCodes?_escape_append, ih]
    rfl

/-! ## Characters -/

/-- No character is half of a surrogate pair. -/
theorem not_surrogate (c : Char) : isHigh c.toNat = false ∧ isLow c.toNat = false := by
  have hvalid : c.toNat < 0xD800 ∨ 0xDFFF < c.toNat ∧ c.toNat < 0x110000 := c.valid
  simp only [isHigh, isLow, Bool.and_eq_false_iff, decide_eq_false_iff_not]
  omega

theorem ofCodes?_map_toNat (cs : List Char) : ofCodes? (cs.map Char.toNat) = some cs := by
  induction cs with
  | nil => rfl
  | cons c cs ih =>
    obtain ⟨hhigh, hlow⟩ := not_surrogate c
    cases cs with
    | nil => simp [ofCodes?, hhigh, hlow]
    | cons d cs =>
      rw [List.map_cons, List.map_cons, ofCodes?, hhigh, hlow, ← List.map_cons, ih]
      simp

/-! ## Texts -/

/-- A quoted text is read back, whatever follows it. -/
theorem span?_write_append (text : String) (rest : List Char) :
    span? (text.toList.flatMap escape ++ '"' :: rest) = some (some text, rest) := by
  rw [span?, spanCodes?_write, Option.map_some]
  simp [ofCodes?_map_toNat]

end Criteria.Json.Quoted
