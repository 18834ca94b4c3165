import Criteria.Proofs.Gaps
import Criteria.Proofs.Phrases

/-!
# Pieces of texts put together

Where a lexeme starts it is the first piece of the text, and a blank is a piece by itself, so the
pieces of a text that is put together of lexemes and blanks are known. If they leave nothing but
blanks between the lexemes, the strict scan finds just these lexemes (`scan_strict_of_pieces`).
-/

namespace Criteria.Lexeme

open Text (isBlank)

theorem piecesFrom_eq (inside : Nat) (cs : List Char) :
    piecesFrom inside cs = pieces (cs.drop inside) := by
  induction inside generalizing cs with
  | zero => rfl
  | succ inside ih =>
    cases cs with
    | nil => rfl
    | cons c cs => exact ih cs

/-- A lexeme that is found at the start of a text is its first piece. -/
theorem pieces_append {lexeme : Lexeme} {rest : List Char}
    (h : start? (lexeme.text.toList ++ rest) = some lexeme) :
    pieces (lexeme.text.toList ++ rest) = .found lexeme :: pieces rest := by
  have hne := text_ne_nil_of_start? h
  cases htext : lexeme.text.toList with
  | nil => exact absurd htext hne
  | cons c cs =>
    have hlength : lexeme.text.length - 1 = cs.length := by
      rw [← String.length_toList, htext]
      rfl
    rw [htext, List.cons_append] at h
    rw [List.cons_append, pieces, piecesFrom, h]
    simp only
    rw [piecesFrom_eq, hlength, List.drop_left]

/-- Where no lexeme starts a character is passed over. -/
theorem pieces_cons_of_start?_eq_none {c : Char} {cs : List Char} (h : start? (c :: cs) = none) :
    pieces (c :: cs) = .passed c :: pieces cs := by
  rw [pieces, piecesFrom, h]
  rfl

/-- What is shown of texts piece by piece: for the text without pieces, and for a text behind a
character that is passed over or behind a lexeme that is found. -/
theorem pieces_induction {motive : List Char → Prop} (nil : motive [])
    (passed : ∀ c cs, start? (c :: cs) = none → motive cs → motive (c :: cs))
    (found : ∀ (lexeme : Lexeme) rest, start? (lexeme.text.toList ++ rest) = some lexeme →
      motive rest → motive (lexeme.text.toList ++ rest)) (cs : List Char) : motive cs := by
  induction hlength : cs.length using Nat.strongRecOn generalizing cs with
  | _ length ih =>
    cases hstart : start? cs with
    | none =>
      cases cs with
      | nil => exact nil
      | cons c cs => exact passed c cs hstart (ih cs.length (by simp [← hlength]) cs rfl)
    | some lexeme =>
      obtain ⟨rest, rfl⟩ := text_of_start? hstart
      have hpos : 0 < lexeme.text.toList.length :=
        List.length_pos_iff.mpr (text_ne_nil_of_start? hstart)
      rw [List.length_append] at hlength
      exact found lexeme rest hstart (ih rest.length (by omega) rest rfl)

/-- A blank is a piece by itself. -/
theorem pieces_cons_of_isBlank {c : Char} (h : isBlank c = true) (cs : List Char) :
    pieces (c :: cs) = .passed c :: pieces cs :=
  pieces_cons_of_start?_eq_none (start?_of_isBlank h cs)

theorem pieces_opening (cs : List Char) : pieces ('(' :: cs) = .found .opening :: pieces cs :=
  pieces_append (show start? (opening.text.toList ++ cs) = some opening from rfl)

theorem pieces_closing (cs : List Char) : pieces (')' :: cs) = .found .closing :: pieces cs :=
  pieces_append (show start? (closing.text.toList ++ cs) = some closing from rfl)

/-- A keyword is a piece by itself before a character that no word goes on with. -/
theorem pieces_connective (keyword : Connective) {c : Char} (h : Text.isWord c = false)
    (cs : List Char) :
    pieces (keyword.word.toList ++ c :: cs) =
      .found (connective keyword) :: pieces (c :: cs) := by
  have hend : Text.startsWord (c :: cs) = false := h
  have hstart : start? ((connective keyword).text.toList ++ c :: cs) =
      some (connective keyword) := start?_word_append keyword hend
  have hpieces := pieces_append hstart
  rw [text] at hpieces
  exact hpieces

/-- A phrase whose name is no keyword is a piece by itself. -/
theorem pieces_source_append {phrase : Phrase} (h : phrase.WellFormed)
    (hkeyword : ∀ connective : Connective, phrase.field ≠ connective.word.toList)
    {rest : List Char} (hends : phrase.spelling.EndsBefore rest) :
    pieces (phrase.source ++ rest) =
      .found (.condition (String.ofList phrase.source)) :: pieces rest := by
  have hstart : start? ((condition (String.ofList phrase.source)).text.toList ++ rest) =
      some (condition (String.ofList phrase.source)) := by
    rw [text, String.toList_ofList]
    exact start?_source_append h hkeyword hends
  have hpieces := pieces_append hstart
  rw [text, String.toList_ofList] at hpieces
  exact hpieces

/-- A text with a lexeme in it is not blank. -/
theorem not_blank_of_found {cs : List Char} {lexeme : Lexeme}
    (h : Piece.found lexeme ∈ pieces cs) : cs.all isBlank = false := by
  induction cs with
  | nil => simp [pieces, piecesFrom] at h
  | cons c cs ih =>
    cases hc : isBlank c with
    | false => simp [hc]
    | true =>
      rw [pieces_cons_of_isBlank hc] at h
      simpa [hc] using ih (by simpa using h)

/-- The lexeme of a piece, unless it has been passed over. -/
def Piece.lexeme? : Piece → Option Lexeme
  | passed _ => none
  | found lexeme => some lexeme

@[simp] theorem Piece.lexeme?_passed (c : Char) : (passed c).lexeme? = none := rfl

@[simp] theorem Piece.lexeme?_found (lexeme : Lexeme) : (found lexeme).lexeme? = some lexeme := rfl

theorem map_lexeme_occurrencesFrom (start : Nat) (pieces : List Piece) :
    (occurrencesFrom start pieces).map (·.lexeme) = pieces.filterMap Piece.lexeme? := by
  induction pieces generalizing start with
  | nil => rfl
  | cons piece pieces ih =>
    cases piece with
    | passed c => exact ih _
    | found lexeme => exact congrArg (lexeme :: ·) (ih _)

/-- A strict scan succeeds where only blanks are passed over and a lexeme is found. -/
theorem scan_strict_of_pieces {rule : String}
    (hpassed : ∀ c, Piece.passed c ∈ pieces rule.toList → isBlank c = true)
    (hfound : ∃ lexeme, Piece.found lexeme ∈ pieces rule.toList) :
    ∃ occurrences, scan .strict rule = .ok occurrences ∧
      occurrences.map (·.lexeme) = (pieces rule.toList).filterMap Piece.lexeme? := by
  obtain ⟨lexeme, hmem⟩ := hfound
  refine ⟨_, ?_, map_lexeme_occurrencesFrom 0 _⟩
  -- a lexeme among the pieces is an occurrence
  have hne : occurrencesFrom 0 (pieces rule.toList) ≠ [] := by
    intro hnil
    have hmap := map_lexeme_occurrencesFrom 0 (pieces rule.toList)
    rw [hnil, List.map_nil, eq_comm, List.filterMap_eq_nil_iff] at hmap
    exact absurd (hmap _ hmem) (by simp [Piece.lexeme?])
  rw [scan_strict_eq, (strayText?_eq_none_iff_passed _).mpr hpassed, scan_lenient_eq,
    not_blank_of_found hmem, if_neg hne]
  rfl

end Criteria.Lexeme
