import Mathlib.Data.List.Chain
import Criteria.Proofs.Embedding

/-!
# Scanning a layout

Lexemes are laid out one behind the other, with blanks before, between and behind them. Any blanks
will do, and beside a parenthesis none are needed; other neighbours need at least one blank between
them, as a keyword would go on with the name behind it. A scan of the text finds just these
lexemes, in either mode, each in the place where it has been written (`scan_layout`). What a
condition holds does not matter: a name may begin with a keyword, and a text between marks may be
made of keywords and parentheses.
-/

namespace Criteria.Lexeme

open Text (isBlank Stops startsWord)

/-! ## Lexemes that a rule can write -/

/-- The lexeme is a parenthesis. -/
def isParenthesis : Lexeme → Bool
  | opening | closing => true
  | connective _ | condition _ => false

/-- A rule can write the lexeme. The text of a condition has to be that of a phrase, and the name
in it may not be a keyword. -/
def Writable : Lexeme → Prop
  | condition text => ∃ phrase : Phrase, phrase.WellFormed ∧
      (∀ connective : Connective, phrase.field ≠ connective.word.toList) ∧
      text = String.ofList phrase.source
  | opening | closing | connective _ => True

/-- A parenthesis ends by itself, all else where no word goes on. -/
theorem start?_text_append {lexeme : Lexeme} (h : lexeme.Writable) {rest : List Char}
    (hend : lexeme.isParenthesis = true ∨ startsWord rest = false) :
    start? (lexeme.text.toList ++ rest) = some lexeme := by
  cases lexeme with
  | opening => rfl
  | closing => rfl
  | connective keyword =>
    have hrest : startsWord rest = false := by simpa [isParenthesis] using hend
    exact start?_word_append keyword hrest
  | condition text =>
    obtain ⟨phrase, hphrase, hkeyword, rfl⟩ := h
    have hrest : startsWord rest = false := by simpa [isParenthesis] using hend
    have hstops : Stops Char.isDigit rest :=
      (Text.startsWord_eq_false_iff.mp hrest).of_subclass isWord_of_isDigit
    have hends : phrase.spelling.EndsBefore ([] ++ rest) :=
      phrase.spelling.endsBefore_nil.append hstops
    rw [Lexeme.text, String.toList_ofList]
    exact start?_source_append hphrase hkeyword hends

/-- A parenthesis belongs to no word. -/
theorem startsWord_of_isParenthesis {lexeme : Lexeme} (h : lexeme.isParenthesis = true)
    (rest : List Char) : startsWord (lexeme.text.toList ++ rest) = false := by
  cases lexeme with
  | opening => exact (by decide +kernel : Text.isWord '(' = false)
  | closing => exact (by decide +kernel : Text.isWord ')' = false)
  | connective keyword => simp [isParenthesis] at h
  | condition text => simp [isParenthesis] at h

/-! ## Layouts -/

/-- A lexeme with the gap before it. -/
structure Part where
  gap : List Char
  lexeme : Lexeme

namespace Part

/-- The text of a part. -/
def source (part : Part) : List Char :=
  part.gap ++ part.lexeme.text.toList

/-- The pieces of a part: the characters of its gap are passed over. -/
def pieces (part : Part) : List Piece :=
  part.gap.map .passed ++ [.found part.lexeme]

/-- A rule can write the part: its lexeme can be written, and its gap is blank. -/
structure WellFormed (part : Part) : Prop where
  lexeme : part.lexeme.Writable
  gap : ∀ c ∈ part.gap, isBlank c = true

/-- Neighbours have blanks between them, or one of them is a parenthesis. -/
def Separated (part next : Part) : Prop :=
  next.gap ≠ [] ∨ part.lexeme.isParenthesis = true ∨ next.lexeme.isParenthesis = true

end Part

/-- Lexemes with the gaps before them, and the gap behind the last. -/
structure Layout where
  parts : List Part
  behind : List Char

namespace Layout

/-- The text of a layout. -/
def text (layout : Layout) : String :=
  String.ofList (layout.parts.flatMap Part.source ++ layout.behind)

/-- The lexemes in the places where they are written behind a text. -/
def occurrencesBehind (front : List Char) : List Part → List Occurrence
  | [] => []
  | part :: parts =>
    let upToLexeme := front ++ part.gap
    let upToEnd := upToLexeme ++ part.lexeme.text.toList
    ⟨part.lexeme, offset upToLexeme, offset upToEnd⟩ :: occurrencesBehind upToEnd parts

/-- The lexemes in the places where they are written. -/
def occurrences (layout : Layout) : List Occurrence :=
  occurrencesBehind [] layout.parts

/-- A layout that is a rule: it has a lexeme, its parts can be written, neighbours are separated,
and what is behind them is blank. -/
structure WellFormed (layout : Layout) : Prop where
  parts_ne : layout.parts ≠ []
  parts : ∀ part ∈ layout.parts, part.WellFormed
  separated : layout.parts.IsChain Part.Separated
  behind : ∀ c ∈ layout.behind, isBlank c = true

end Layout

/-! ## Pieces of layouts -/

theorem pieces_blanks_append {blanks : List Char} (hblanks : ∀ c ∈ blanks, isBlank c = true)
    (rest : List Char) : pieces (blanks ++ rest) = blanks.map .passed ++ pieces rest := by
  induction blanks with
  | nil => rfl
  | cons c blanks ih =>
    obtain ⟨hc, hothers⟩ := List.forall_mem_cons.mp hblanks
    rw [List.cons_append, pieces_cons_of_isBlank hc, ih hothers]
    rfl

/-- No word goes on behind a part that is no parenthesis. -/
theorem startsWord_behind {part : Part} {parts : List Part} {behind : List Char}
    (hseparated : (part :: parts).IsChain Part.Separated)
    (hparts : ∀ next ∈ parts, next.WellFormed) (hbehind : ∀ c ∈ behind, isBlank c = true)
    (hpart : part.lexeme.isParenthesis = false) :
    startsWord (parts.flatMap Part.source ++ behind) = false := by
  have hblank : ∀ c, isBlank c = true → Text.isWord c = false :=
    fun c => Text.isWord_eq_false_of_isBlank
  cases parts with
  | nil =>
    cases behind with
    | nil => rfl
    | cons c behind => exact hblank c (hbehind c List.mem_cons_self)
  | cons next parts =>
    have hgap := (hparts next List.mem_cons_self).gap
    obtain ⟨hnext, -⟩ := List.isChain_cons_cons.mp hseparated
    rw [List.flatMap_cons, Part.source, List.append_assoc, List.append_assoc]
    cases hempty : next.gap with
    | cons c gap => exact hblank c (hgap c (by simp [hempty]))
    | nil =>
      -- without blanks the next part is a parenthesis
      have hparenthesis : next.lexeme.isParenthesis = true := by
        simpa [Part.Separated, hempty, hpart] using hnext
      exact startsWord_of_isParenthesis hparenthesis _

theorem pieces_parts_append {parts : List Part} (hparts : ∀ part ∈ parts, part.WellFormed)
    (hseparated : parts.IsChain Part.Separated) {behind : List Char}
    (hbehind : ∀ c ∈ behind, isBlank c = true) :
    pieces (parts.flatMap Part.source ++ behind) =
      parts.flatMap Part.pieces ++ behind.map .passed := by
  induction parts with
  | nil =>
    have hall := pieces_blanks_append hbehind []
    rw [List.append_nil] at hall
    exact hall.trans (List.append_nil _)
  | cons part parts ih =>
    obtain ⟨hpart, hothers⟩ := List.forall_mem_cons.mp hparts
    let rest := parts.flatMap Part.source ++ behind
    have hend : part.lexeme.isParenthesis = true ∨ startsWord rest = false := by
      cases hparenthesis : part.lexeme.isParenthesis with
      | true => exact .inl rfl
      | false => exact .inr (startsWord_behind hseparated hothers hbehind hparenthesis)
    have hrest : pieces rest = parts.flatMap Part.pieces ++ behind.map .passed :=
      ih hothers hseparated.of_cons
    calc pieces ((part :: parts).flatMap Part.source ++ behind)
        = pieces (part.gap ++ (part.lexeme.text.toList ++ rest)) := by
          simp [Part.source, rest]
      _ = part.gap.map .passed ++ .found part.lexeme :: pieces rest := by
          rw [pieces_blanks_append hpart.gap,
            pieces_append (start?_text_append hpart.lexeme hend)]
      _ = (part :: parts).flatMap Part.pieces ++ behind.map .passed := by
          simp [hrest, Part.pieces]

/-! ## Places in layouts -/

theorem occurrencesFrom_map_passed (start : Nat) (gap : List Char) (pieces : List Piece) :
    occurrencesFrom start (gap.map .passed ++ pieces) =
      occurrencesFrom (start + offset gap) pieces := by
  induction gap generalizing start with
  | nil => rfl
  | cons c gap ih =>
    rw [List.map_cons, List.cons_append, occurrencesFrom, ih, offset_cons, Nat.add_assoc]

theorem occurrencesFrom_parts (front : List Char) (parts : List Part) (behind : List Char) :
    occurrencesFrom (offset front) (parts.flatMap Part.pieces ++ behind.map .passed) =
      Layout.occurrencesBehind front parts := by
  induction parts generalizing front with
  | nil =>
    have hall := occurrencesFrom_map_passed (offset front) behind []
    rw [List.append_nil] at hall
    exact hall
  | cons part parts ih =>
    rw [List.flatMap_cons, Part.pieces, List.append_assoc, List.append_assoc,
      occurrencesFrom_map_passed, ← offset_append, List.singleton_append, occurrencesFrom,
      ← offset_toList, ← offset_append, ih]
    rfl

/-- A scan of a layout finds its lexemes in the places where they are written, in either mode. -/
theorem scan_layout (mode : Mode) {layout : Layout} (h : layout.WellFormed) :
    scan mode layout.text = .ok layout.occurrences := by
  obtain ⟨hne, hparts, hseparated, hbehind⟩ := h
  have hpieces : pieces layout.text.toList =
      layout.parts.flatMap Part.pieces ++ layout.behind.map .passed := by
    rw [Layout.text, String.toList_ofList]
    exact pieces_parts_append hparts hseparated hbehind
  have htidy : Tidy layout.text.toList := by
    intro c hc
    rw [hpieces] at hc
    simp only [List.mem_append, List.mem_flatMap, Part.pieces, List.mem_map, List.mem_singleton,
      Piece.passed.injEq, exists_eq_right, reduceCtorEq, or_false] at hc
    rcases hc with ⟨part, hpart, hgap⟩ | hmem
    · exact (hparts part hpart).gap c hgap
    · exact hbehind c hmem
  have hfound : ∃ lexeme, .found lexeme ∈ pieces layout.text.toList := by
    obtain ⟨part, parts, hcons⟩ := List.exists_cons_of_ne_nil hne
    exact ⟨part.lexeme, by simp [hpieces, hcons, Part.pieces]⟩
  rw [scan_of_tidy mode htidy hfound, hpieces]
  exact congrArg Except.ok (occurrencesFrom_parts [] layout.parts layout.behind)

/-- No blanks beside the parentheses, a name that begins with a keyword, a text with a keyword in
it, a wide blank of three bytes and a line break inside a condition. -/
theorem scan_layout_of_keywords_in_conditions :
    let layout : Layout :=
      ⟨[⟨[], .opening⟩, ⟨[], .condition "ORDER!='b) AND'"⟩, ⟨[], .closing⟩,
        ⟨[], .connective .and⟩, ⟨['\u3000'], .condition "n\n<=007"⟩], [' ']⟩
    layout.WellFormed ∧
      scan .strict "(ORDER!='b) AND')AND\u3000n\n<=007 " =
        .ok [⟨.opening, 0, 1⟩, ⟨.condition "ORDER!='b) AND'", 1, 16⟩, ⟨.closing, 16, 17⟩,
          ⟨.connective .and, 17, 20⟩, ⟨.condition "n\n<=007", 23, 30⟩] := by
  intro layout
  have hquoted : (Phrase.mk "ORDER".toList [] .ne []
      (.quoted .single "b) AND".toList)).WellFormed :=
    ⟨by decide, by simp, by simp, (by decide : '\'' ∉ "b) AND".toList)⟩
  have hdigits : (Phrase.mk ['n'] ['\n'] .le [] (.digits "007".toList)).WellFormed :=
    ⟨by decide, List.all_eq_true.mp (by decide +kernel), by simp, by decide,
      List.all_eq_true.mp (by decide)⟩
  have hlayout : layout.WellFormed := by
    refine ⟨by simp [layout], ?_, ?_, List.all_eq_true.mp (by decide +kernel)⟩
    · intro part hpart
      simp only [layout, List.mem_cons, List.not_mem_nil, or_false] at hpart
      rcases hpart with rfl | rfl | rfl | rfl | rfl
      · exact ⟨trivial, by simp⟩
      · exact ⟨⟨_, hquoted, fun keyword => by cases keyword <;> decide, by decide⟩, by simp⟩
      · exact ⟨trivial, by simp⟩
      · exact ⟨trivial, by simp⟩
      · exact ⟨⟨_, hdigits, fun keyword => by cases keyword <;> decide, by decide⟩,
          List.all_eq_true.mp (by decide +kernel)⟩
    · simp [layout, Part.Separated, isParenthesis]
  have htext : layout.text = "(ORDER!='b) AND')AND\u3000n\n<=007 " := by decide +kernel
  have hplaces : layout.occurrences =
      [⟨.opening, 0, 1⟩, ⟨.condition "ORDER!='b) AND'", 1, 16⟩, ⟨.closing, 16, 17⟩,
        ⟨.connective .and, 17, 20⟩, ⟨.condition "n\n<=007", 23, 30⟩] := by decide +kernel
  refine ⟨hlayout, ?_⟩
  rw [← htext, scan_layout .strict hlayout, hplaces]

end Criteria.Lexeme
