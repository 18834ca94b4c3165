import Criteria.Proofs.Lexemes
import Criteria.Proofs.Pieces
import Criteria.Proofs.Strictness

/-!
# Rules inside longer texts

What a scan finds at the start of a text it also finds if the text goes on behind its end, provided
that it does not go on with a word: a keyword still ends, a name has ended before, and digits are
part of words. So a text that is tidy, of which a scan leaves nothing but blanks, falls into the
pieces that it falls into by itself, whatever its quotes and blanks and whatever it ends with
(`pieces_append_of_tidy`). In particular a tidy text keeps its pieces between parentheses.

The rules that compile strictly are the tidy ones whose lexemes are an expression within the limits.
-/

namespace Criteria

open Outcome
open Text (isBlank startsWord)

namespace Lexeme

/-! ## Tidy texts -/

/-- A scan of the text passes over nothing but blanks. -/
def Tidy (cs : List Char) : Prop :=
  ∀ c, .passed c ∈ pieces cs → isBlank c = true

theorem piecesFrom_append_of_tidy {inside : Nat} {cs rest : List Char}
    (htidy : ∀ c, .passed c ∈ piecesFrom inside cs → isBlank c = true)
    (hinside : inside ≤ cs.length) (hrest : startsWord rest = false) :
    piecesFrom inside (cs ++ rest) = piecesFrom inside cs ++ pieces rest := by
  fun_induction piecesFrom inside cs with
  | case1 inside =>
    obtain rfl : inside = 0 := by simpa using hinside
    rfl
  | case2 inside c cs ih => exact ih htidy (by simpa using hinside)
  | case3 c cs lexeme hstart ih =>
    have hlength : lexeme.text.length - 1 ≤ cs.length := by
      obtain ⟨tail, hsource⟩ := text_of_start? hstart
      have := congrArg List.length hsource
      rw [List.length_append, List.length_cons, String.length_toList] at this
      omega
    have hfound : start? (c :: (cs ++ rest)) = some lexeme := start?_append hstart hrest
    rw [List.cons_append, piecesFrom, hfound]
    exact congrArg (.found lexeme :: ·)
      (ih (fun d hd => htidy d (List.mem_cons_of_mem _ hd)) hlength)
  | case4 c cs _ ih =>
    have hblank : isBlank c = true := htidy c List.mem_cons_self
    rw [List.cons_append, piecesFrom, start?_of_isBlank hblank]
    exact congrArg (.passed c :: ·)
      (ih (fun d hd => htidy d (List.mem_cons_of_mem _ hd)) (Nat.zero_le _))

/-- A tidy text keeps its pieces where more text follows that does not go on with a word. -/
theorem pieces_append_of_tidy {cs rest : List Char} (htidy : Tidy cs)
    (hrest : startsWord rest = false) : pieces (cs ++ rest) = pieces cs ++ pieces rest :=
  piecesFrom_append_of_tidy htidy (Nat.zero_le _) hrest

/-- A tidy text keeps its pieces between parentheses. -/
theorem pieces_group {cs : List Char} (htidy : Tidy cs) (rest : List Char) :
    pieces ('(' :: (cs ++ ')' :: rest)) =
      .found .opening :: (pieces cs ++ .found .closing :: pieces rest) := by
  have hrest : startsWord (')' :: rest) = false := by
    show Text.isWord ')' = false
    decide +kernel
  rw [pieces_opening, pieces_append_of_tidy htidy hrest, pieces_closing]

/-- The lexemes of a text. -/
def lexemesOf (cs : List Char) : List Lexeme :=
  (pieces cs).filterMap Piece.lexeme?

/-- A tidy text with a lexeme in it is scanned alike in both modes. -/
theorem scan_of_tidy (mode : Mode) {rule : String} (htidy : Tidy rule.toList)
    (hfound : ∃ lexeme, .found lexeme ∈ pieces rule.toList) :
    scan mode rule = .ok (occurrencesFrom 0 (pieces rule.toList)) := by
  obtain ⟨occurrences, hstrict, -⟩ := scan_strict_of_pieces htidy hfound
  have hlenient : scan .lenient rule = .ok occurrences := (scan_refines rule).eq_ok hstrict
  rw [occurrencesFrom_pieces_of_scan hlenient]
  cases mode with
  | strict => exact hstrict
  | lenient => exact hlenient

end Lexeme

/-! ## Tidy rules -/

/-- An expression of the grammar whose parentheses are within the limit has a formula, or it is too
high. -/
theorem Derives.ofLexemes_eq_ite {lexemes : List Lexeme} {formula : Formula} {nesting : Nat}
    (h : Derives .expression lexemes formula nesting) {policy : Policy}
    (hnesting : nesting ≤ policy.maxNesting) :
    Formula.ofLexemes policy lexemes =
      if policy.Fits formula then .ok formula else .error (.tooDeep policy.maxHeight) := by
  split
  · next hfits => exact h.ofLexemes_eq ⟨by omega, hfits⟩
  · next hhigh =>
    obtain ⟨limit, hbreaks, hread⟩ := h.readLevel_eq_error policy 0 [] .empty [] rfl
      (Nat.zero_le _) fun hadmits => hhigh hadmits.fits
    obtain rfl : limit = policy.maxHeight := by
      rcases hbreaks with ⟨-, hdeep⟩ | ⟨hlimit, -⟩
      · simp at hdeep
        omega
      · exact hlimit
    rw [List.append_nil] at hread
    rw [Formula.ofLexemes, hread]
    rfl

namespace Rule

open Lexeme (Tidy lexemesOf)

variable {policy : Policy} {rule : String} {formula : Formula}

/-- A rule that compiles strictly is tidy, and its lexemes are an expression within the limits. -/
theorem derives_of_compile (h : compile policy.strictly rule = .ok formula) :
    Tidy rule.toList ∧ ∃ nesting,
      Derives .expression (lexemesOf rule.toList) formula nesting ∧
        policy.Admits 0 formula nesting := by
  obtain ⟨occurrences, hscan, hread⟩ := bind_eq_ok_iff.mp h
  obtain ⟨hlenient, hblank⟩ := Lexeme.scan_strict_eq_ok_iff.mp hscan
  obtain rfl := Lexeme.occurrencesFrom_pieces_of_scan hlenient
  rw [Lexeme.map_lexeme_occurrencesFrom] at hread
  rw [← Lexeme.strayText?_eq_none_iff, Lexeme.strayText?_eq_none_iff_passed] at hblank
  obtain ⟨nesting, hderives, hadmits⟩ := derives_of_ofLexemes rfl hread
  exact ⟨hblank, nesting, hderives, hadmits.nesting_le, hadmits.fits⟩

/-- A tidy rule whose lexemes are an expression compiles in either mode, unless its parentheses or
its formula are beyond a limit; here the parentheses are not. -/
theorem compile_eq_ite_of_tidy (htidy : Tidy rule.toList) {nesting : Nat}
    (hderives : Derives .expression (lexemesOf rule.toList) formula nesting)
    (hnesting : nesting ≤ policy.maxNesting) :
    compile policy rule =
      if policy.Fits formula then .ok formula else .error (.tooDeep policy.maxHeight) := by
  -- an expression has a condition, so the scan finds something
  have hpos : 0 < (lexemesOf rule.toList).countP Lexeme.isCondition := by
    rw [← hderives.size_eq]
    exact formula.size_pos
  obtain ⟨lexeme, hmem, -⟩ := List.countP_pos_iff.mp hpos
  obtain ⟨piece, hpiece, hlexeme⟩ := List.mem_filterMap.mp hmem
  have hfound : ∃ lexeme, .found lexeme ∈ Lexeme.pieces rule.toList := by
    cases piece with
    | passed c => simp at hlexeme
    | found found => exact ⟨found, hpiece⟩
  rw [compile, Lexeme.scan_of_tidy policy.mode htidy hfound, ok_bind,
    Lexeme.map_lexeme_occurrencesFrom]
  exact hderives.ofLexemes_eq_ite hnesting

end Rule

end Criteria
