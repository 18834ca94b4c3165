import Criteria.Lexeme
import Criteria.Policy

/-!
# Scanning

A rule is scanned from its start. Where a lexeme starts it is taken whole, and elsewhere one
character is passed over; so a rule falls into pieces that, put together again, are the rule.
What is passed over between two lexemes, before the first and behind the last is a gap. A lenient
reading does not look at the gaps; a strict one refuses the first that is not blank.
-/

namespace Criteria.Lexeme

/-! ## Pieces -/

/-- A piece of a rule: a lexeme, or a character that is part of none. -/
inductive Piece where
  | passed (character : Char)
  | found (lexeme : Lexeme)
deriving DecidableEq

/-- The text of a piece. -/
def Piece.source : Piece → List Char
  | passed character => [character]
  | found lexeme => lexeme.text.toList

/-- The pieces of a text whose first `inside` characters are part of a lexeme found before. -/
def piecesFrom : Nat → List Char → List Piece
  | _, [] => []
  | inside + 1, _ :: cs => piecesFrom inside cs
  | 0, c :: cs =>
    match start? (c :: cs) with
    | some lexeme => .found lexeme :: piecesFrom (lexeme.text.length - 1) cs
    | none => .passed c :: piecesFrom 0 cs

/-- The pieces of a text. -/
def pieces (cs : List Char) : List Piece :=
  piecesFrom 0 cs

theorem flatMap_source_piecesFrom (inside : Nat) (cs : List Char) :
    (piecesFrom inside cs).flatMap Piece.source = cs.drop inside := by
  fun_induction piecesFrom inside cs with
  | case1 => simp
  | case2 inside c cs ih => simpa using ih
  | case3 c cs lexeme hstart ih =>
    obtain ⟨rest, hrest⟩ := text_of_start? hstart
    have hne := text_ne_nil_of_start? hstart
    have hdrop : cs.drop (lexeme.text.length - 1) = rest := by
      have hlength : lexeme.text.length = lexeme.text.length - 1 + 1 := by
        have : lexeme.text.length ≠ 0 := by
          rw [← String.length_toList]
          exact fun h => hne (List.length_eq_zero_iff.1 h)
        omega
      have := congrArg (List.drop lexeme.text.length) hrest
      rw [hlength, List.drop_succ_cons] at this
      rw [this, ← hlength, ← String.length_toList, List.drop_left]
    rw [List.flatMap_cons, ih, hdrop, List.drop_zero]
    exact hrest.symm
  | case4 c cs _ ih => simpa [Piece.source] using ih

/-- The pieces of a text, put together again, are the text. -/
theorem flatMap_source_pieces (cs : List Char) : (pieces cs).flatMap Piece.source = cs := by
  rw [pieces, flatMap_source_piecesFrom, List.drop_zero]

/-! ## Places -/

/-- A lexeme and its place in the rule, in bytes of UTF-8: it starts at the first byte and stops
before the second. -/
structure Occurrence where
  lexeme : Lexeme
  start : Nat
  stop : Nat
deriving DecidableEq

/-- The lexemes among pieces of which the first starts at a byte. -/
def occurrencesFrom : Nat → List Piece → List Occurrence
  | _, [] => []
  | start, .passed character :: pieces => occurrencesFrom (start + character.utf8Size) pieces
  | start, .found lexeme :: pieces =>
    let stop := start + lexeme.text.utf8ByteSize
    ⟨lexeme, start, stop⟩ :: occurrencesFrom stop pieces

/-! ## Gaps -/

/-- The gaps of a rule: before its first lexeme, between neighbours, and behind its last. -/
def gaps : List Piece → List (List Char)
  | [] => [[]]
  | .passed character :: pieces =>
    match gaps pieces with
    | gap :: rest => (character :: gap) :: rest
    | [] => [[character]]
  | .found _ :: pieces => [] :: gaps pieces

/-- The first gap that is not blank, without the blanks around it. -/
def strayText? (pieces : List Piece) : Option (List Char) :=
  ((gaps pieces).map Text.strip).find? (· ≠ [])

/-- The lexemes of a rule. A blank rule has none, whatever the mode; apart from that a strict scan
refuses stray text, and a lenient one only a rule without lexemes. -/
def scan (mode : Mode) (rule : String) : Except Fault (List Occurrence) :=
  let cs := rule.toList
  if cs.all Text.isBlank then .error .emptyRule
  else
    match mode, strayText? (pieces cs), occurrencesFrom 0 (pieces cs) with
    | .strict, some text, _ => .error (.unexpectedText (String.ofList text))
    | _, _, [] => .error .emptyRule
    | _, _, occurrences => .ok occurrences

end Criteria.Lexeme
