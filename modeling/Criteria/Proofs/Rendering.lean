import Criteria.Proofs.Embedding

/-!
# The text of a formula compiles to the formula

The text of a formula is scanned into the lexemes that were written, with single blanks between
them, and these lexemes are an operand of the grammar: every join stands between parentheses, so
they nest one level less deep than the formula is high. So the text of a formula compiles to the
formula, in either mode and under all limits that the formula keeps, provided that its names are
names and its literals can be read back from their texts.
-/

namespace Criteria

open Outcome
open Number (Binary64 natOfDigits)
open Text (isBlank Stops stops_nil stops_cons)

/-! ## Conditions that can be read back -/

/-- The literal as it is written. -/
def Literal.spelling : Literal → Spelling
  | .number value => .digits value.toPlain.toList
  | .text value => .quoted .single value.toList

/-- The literal can be read back from its text. A text holds no mark and is no number, and a number
is written in digits that stand for it. -/
def Literal.Readable : Literal → Prop
  | .number value => value.toPlain.toList ≠ [] ∧
      (∀ c ∈ value.toPlain.toList, c.isDigit = true) ∧
      Binary64.ofNat (natOfDigits value.toPlain.toList) = value
  | .text value => '\'' ∉ value.toList ∧
      ¬ (value.toList ≠ [] ∧ ∀ c ∈ value.toList, c.isDigit = true)

/-- The condition can be read back from its text: its field is a name and no keyword, and its
literal can be read back. -/
structure Condition.Readable (condition : Condition) : Prop where
  field : isName condition.field.toList = true
  field_ne : ∀ connective : Connective, condition.field ≠ connective.word
  value : condition.value.Readable

/-- The condition as it is written. -/
def Condition.phrase (condition : Condition) : Phrase :=
  ⟨condition.field.toList, [' '], condition.relation, [' '], condition.value.spelling⟩

theorem Literal.source_spelling (literal : Literal) :
    literal.spelling.source = literal.render.toList := by
  cases literal with
  | number value => rfl
  | text value => simp [spelling, Spelling.source, render, Quote.mark]

theorem Literal.Readable.wellFormed {literal : Literal} (h : literal.Readable) :
    literal.spelling.WellFormed := by
  cases literal with
  | number value => exact ⟨h.1, h.2.1⟩
  | text value => exact h.1

theorem Literal.Readable.literal_spelling {literal : Literal} (h : literal.Readable) :
    literal.spelling.literal = literal := by
  cases literal with
  | number value =>
    obtain ⟨hne, hdigits, hvalue⟩ := h
    have hliteral : (Spelling.digits value.toPlain.toList).literal =
        .number (.ofNat (natOfDigits value.toPlain.toList)) :=
      Spelling.literal_of_digits hne hdigits
    rw [spelling, hliteral, hvalue]
  | text value =>
    have hliteral : (Spelling.quoted .single value.toList).literal =
        .text (String.ofList value.toList) :=
      Spelling.literal_of_not_digits h.2
    rw [spelling, hliteral, String.ofList_toList]

namespace Condition

theorem source_phrase (condition : Condition) :
    condition.phrase.source = condition.render.toList := by
  simp [phrase, Phrase.source, render, Literal.source_spelling]

theorem ofList_source_phrase (condition : Condition) :
    String.ofList condition.phrase.source = condition.render := by
  rw [source_phrase, String.ofList_toList]

namespace Readable

variable {condition : Condition}

theorem wellFormed (h : condition.Readable) : condition.phrase.WellFormed where
  field := h.field
  before := by
    intro c hc
    obtain rfl := List.mem_singleton.mp hc
    exact isBlank_space
  after := by
    intro c hc
    obtain rfl := List.mem_singleton.mp hc
    exact isBlank_space
  spelling := h.value.wellFormed

theorem condition_phrase (h : condition.Readable) : condition.phrase.condition = condition := by
  obtain ⟨field, relation, value⟩ := condition
  have hvalue : value.spelling.literal = value := h.value.literal_spelling
  simp [phrase, Phrase.condition, hvalue]

/-- The text of a condition is found as one lexeme wherever no digit follows it. -/
theorem pieces_append (h : condition.Readable) {rest : List Char}
    (hrest : Stops Char.isDigit rest) :
    Lexeme.pieces (condition.render.toList ++ rest) =
      .found (.condition condition.render) :: Lexeme.pieces rest := by
  have hkeyword : ∀ connective : Connective,
      condition.phrase.field ≠ connective.word.toList := by
    intro connective heq
    exact h.field_ne connective (String.toList_inj.mp heq)
  have hends : condition.phrase.spelling.EndsBefore rest := by
    cases hvalue : condition.value with
    | number value => simpa [phrase, hvalue, Literal.spelling, Spelling.EndsBefore] using hrest
    | text value => simp [phrase, hvalue, Literal.spelling, Spelling.EndsBefore]
  have hpieces := Lexeme.pieces_source_append h.wellFormed hkeyword hends
  rw [ofList_source_phrase, source_phrase] at hpieces
  exact hpieces

/-- The text of a condition is read as the condition. -/
theorem ofText_render (h : condition.Readable) :
    Condition.ofText condition.render = .ok condition := by
  have htext := ofText_source h.wellFormed
  rw [ofList_source_phrase, h.condition_phrase] at htext
  exact htext

end Readable

end Condition

/-- A phrase by itself compiles to its condition, whatever the policy. -/
theorem Rule.compile_source (policy : Policy) {phrase : Phrase} (h : phrase.WellFormed)
    (hkeyword : ∀ connective : Connective, phrase.field ≠ connective.word.toList) :
    compile policy (String.ofList phrase.source) = .ok (.test phrase.condition) := by
  have hpieces : Lexeme.pieces (String.ofList phrase.source).toList =
      [.found (.condition (String.ofList phrase.source))] := by
    have hall := Lexeme.pieces_source_append h hkeyword (phrase.spelling.endsBefore_nil)
    rw [List.append_nil] at hall
    rw [String.toList_ofList]
    exact hall
  have htidy : Lexeme.Tidy (String.ofList phrase.source).toList := by
    intro c hc
    rw [hpieces] at hc
    simp at hc
  have hderives : Derives .expression (Lexeme.lexemesOf (String.ofList phrase.source).toList)
      (.test phrase.condition) 0 := by
    rw [Lexeme.lexemesOf, hpieces]
    exact .operand (.condition (Condition.ofText_source h))
  rw [compile_eq_ite_of_tidy htidy hderives (Nat.zero_le _), if_pos (Policy.fits_test _ _)]

/-! ## The pieces of the text of a formula -/

namespace Formula

/-- The lexemes of the text of a formula. -/
def lexemes : Formula → List Lexeme
  | test condition => [.condition condition.render]
  | join connective left right =>
    .opening :: (left.lexemes ++ .connective connective :: right.lexemes) ++ [.closing]

/-- The pieces of the text of a formula: its lexemes, with a blank before and behind every
keyword. -/
def pieces : Formula → List Lexeme.Piece
  | test condition => [.found (.condition condition.render)]
  | join connective left right =>
    .found .opening :: (left.pieces ++
      .passed ' ' :: .found (.connective connective) :: .passed ' ' ::
        (right.pieces ++ [.found .closing]))

theorem filterMap_pieces (formula : Formula) :
    formula.pieces.filterMap Lexeme.Piece.lexeme? = formula.lexemes := by
  induction formula with
  | test condition => rfl
  | join connective left right ihLeft ihRight =>
    simp [pieces, lexemes, ihLeft, ihRight, List.filterMap_cons]

/-- Only blanks are passed over. -/
theorem isBlank_of_passed {formula : Formula} {c : Char} (h : .passed c ∈ formula.pieces) :
    isBlank c = true := by
  induction formula with
  | test condition => simp [pieces] at h
  | join connective left right ihLeft ihRight =>
    simp only [pieces, List.mem_cons, List.mem_append, List.not_mem_nil, reduceCtorEq, or_false,
      false_or, Lexeme.Piece.passed.injEq] at h
    rcases h with hleft | rfl | rfl | hright
    · exact ihLeft hleft
    · exact isBlank_space
    · exact isBlank_space
    · exact ihRight hright

/-- Some lexeme is found. -/
theorem exists_found (formula : Formula) : ∃ lexeme, .found lexeme ∈ formula.pieces := by
  cases formula with
  | test condition => exact ⟨_, List.mem_cons_self⟩
  | join connective left right => exact ⟨_, List.mem_cons_self⟩

theorem toList_render_join (connective : Connective) (left right : Formula) (rest : List Char) :
    (join connective left right).render.toList ++ rest =
      '(' :: (left.render.toList ++
        ' ' :: (connective.word.toList ++
          ' ' :: (right.render.toList ++ ')' :: rest))) := by
  simp [render]

/-- A text that starts with that of a formula starts with the pieces of the formula. -/
theorem pieces_render_append {formula : Formula}
    (hreadable : ∀ condition ∈ formula.conditions, condition.Readable) {rest : List Char}
    (hrest : Stops Char.isDigit rest) :
    Lexeme.pieces (formula.render.toList ++ rest) = formula.pieces ++ Lexeme.pieces rest := by
  induction formula generalizing rest with
  | test condition => exact (hreadable condition List.mem_cons_self).pieces_append hrest
  | join connective left right ihLeft ihRight =>
    have hleft : ∀ condition ∈ left.conditions, condition.Readable :=
      fun condition hmem => hreadable condition (List.mem_append_left _ hmem)
    have hright : ∀ condition ∈ right.conditions, condition.Readable :=
      fun condition hmem => hreadable condition (List.mem_append_right _ hmem)
    rw [toList_render_join, Lexeme.pieces_opening, ihLeft hleft (stops_cons rfl),
      Lexeme.pieces_cons_of_isBlank isBlank_space,
      Lexeme.pieces_connective connective (Text.isWord_eq_false_of_isBlank isBlank_space),
      Lexeme.pieces_cons_of_isBlank isBlank_space, ihRight hright (stops_cons rfl),
      Lexeme.pieces_closing]
    simp [pieces]

/-! ## Reading the text of a formula -/

/-- The lexemes of the text of a formula are an operand that makes the formula. Its parentheses
nest one level less deep than the formula is high, as only joins stand between them. -/
theorem derives_lexemes {formula : Formula}
    (hreadable : ∀ condition ∈ formula.conditions, condition.Readable) :
    Derives .operand formula.lexemes formula (formula.height - 1) := by
  induction formula with
  | test condition => exact .condition (hreadable condition List.mem_cons_self).ofText_render
  | join connective left right ihLeft ihRight =>
    have hleft := ihLeft fun condition hmem => hreadable condition (List.mem_append_left _ hmem)
    have hright := ihRight fun condition hmem => hreadable condition (List.mem_append_right _ hmem)
    -- the parentheses of the join stand around those of its sides
    have hnesting : (join connective left right).height - 1 =
        max (left.height - 1) (right.height - 1) + 1 := by
      have := left.height_pos
      have := right.height_pos
      rw [height]
      omega
    rw [hnesting]
    exact .group (.join connective (.operand hleft) hright)

/-- A strict scan of the text of a formula finds its lexemes. -/
theorem scan_strict_render {formula : Formula}
    (hreadable : ∀ condition ∈ formula.conditions, condition.Readable) :
    ∃ occurrences, Lexeme.scan .strict formula.render = .ok occurrences ∧
      occurrences.map (·.lexeme) = formula.lexemes := by
  have hpieces : Lexeme.pieces formula.render.toList = formula.pieces := by
    have hall := pieces_render_append hreadable (stops_nil (p := Char.isDigit))
    rw [List.append_nil] at hall
    exact hall.trans (List.append_nil _)
  rw [← filterMap_pieces, ← hpieces]
  refine Lexeme.scan_strict_of_pieces ?_ ?_
  · intro c hc
    rw [hpieces] at hc
    exact isBlank_of_passed hc
  · rw [hpieces]
    exact formula.exists_found

end Formula

/-- The text of a formula compiles to the formula. The names in it have to be names and no
keywords, and its literals have to be read back from their texts; apart from that the limits of
the policy count, where the parentheses nest one level less deep than the formula is high. -/
theorem compile_render (policy : Policy) (formula : Formula)
    (hreadable : ∀ condition ∈ formula.conditions, condition.Readable)
    (hnesting : formula.height - 1 ≤ policy.maxNesting)
    (hheight : formula.isTest = true ∨ formula.height ≤ policy.maxHeight) :
    Rule.compile policy formula.render = .ok formula := by
  refine Rule.compile_eq_of_strictly ?_
  obtain ⟨occurrences, hscan, hlexemes⟩ := Formula.scan_strict_render hreadable
  have hderives := Formula.derives_lexemes hreadable
  have hread : Formula.ofLexemes policy.strictly formula.lexemes = .ok formula :=
    hderives.operand.ofLexemes_eq ⟨by rw [Nat.zero_add]; exact hnesting, hheight⟩
  show (Lexeme.scan .strict formula.render >>= _) = _
  rw [hscan, ok_bind, hlexemes, hread]

/-- A keyword, parentheses and a line break in a text, and a name that starts with a keyword. -/
theorem compile_render_of_keywords_in_text :
    Rule.compile ⟨.strict, 1, 2⟩ "(ORDER != 'a) AND\n(b' OR n >= 42)" =
      .ok (.join .or (.test ⟨"ORDER", .ne, .text "a) AND\n(b"⟩)
        (.test ⟨"n", .ge, .number (.ofNat 42)⟩)) := by
  have hrender : (Formula.join .or (.test ⟨"ORDER", .ne, .text "a) AND\n(b"⟩)
      (.test ⟨"n", .ge, .number (.ofNat 42)⟩)).render =
        "(ORDER != 'a) AND\n(b' OR n >= 42)" := by decide +kernel
  have htext : (Condition.mk "ORDER" .ne (.text "a) AND\n(b")).Readable :=
    ⟨by decide, fun connective => by cases connective <;> decide, by decide,
      fun hnumber => absurd (hnumber.2 'a' (by decide)) (by decide)⟩
  have hnumber : (Condition.mk "n" .ge (.number (.ofNat 42))).Readable :=
    ⟨by decide, fun connective => by cases connective <;> decide, by decide +kernel,
      List.all_eq_true.mp (by decide +kernel), by decide +kernel⟩
  rw [← hrender]
  refine compile_render ⟨.strict, 1, 2⟩ _ ?_ (by decide) (.inr (by decide))
  intro condition hmem
  simp only [Formula.conditions, List.mem_append, List.mem_singleton] at hmem
  rcases hmem with rfl | rfl
  · exact htext
  · exact hnumber

end Criteria
