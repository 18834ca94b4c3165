import Criteria.Proofs.Phrases

/-!
# Where lexemes stand

A lexeme is found at the start of a text iff it is written there and what follows lets it stand
(`Lexeme.start?_eq_some_iff`): the word of a keyword has to end, digits must not go on, and a
condition must not begin with a keyword that ends. So it is also found where the text goes on
behind its end, but not with a word (`Lexeme.start?_append`). A lexeme is found at all iff one
starts there, whole or cut off in the middle of its digits (`Lexeme.start?_ne_none_iff`).
-/

namespace Criteria

open Text (Stops startsWord)

/-! ## Phrases -/

/-- The name of a phrase is no keyword where no keyword is found in the place of the phrase. -/
theorem Phrase.field_ne_word {phrase : Phrase} (h : phrase.WellFormed) {rest : List Char}
    (hnone : Connective.start? (phrase.source ++ rest) = none) (connective : Connective) :
    phrase.field ≠ connective.word.toList := by
  intro hfield
  -- the blanks or the relation behind the name end the keyword
  have hbehind := stops_isWord_behind_field h (phrase.after ++ phrase.spelling.source ++ rest)
  have hfound : Connective.start? (phrase.source ++ rest) = some connective := by
    refine Connective.start?_eq_some_iff.mpr ⟨_, ?_, Text.startsWord_eq_false_iff.mpr hbehind⟩
    simp [source, hfield]
  rw [hnone] at hfound
  simp at hfound

namespace Lexeme

/-! ## Lexemes that fit -/

/-- The text does not start with a keyword that is followed by a character outside of words. -/
def StartsNoKeyword (cs : List Char) : Prop :=
  ∀ (keyword : Connective) (c : Char) (rest : List Char),
    cs = keyword.word.toList ++ c :: rest → Text.isWord c = true

/-- The lexeme may stand before the rest of a rule: the word of a keyword ends there, and a
condition is written as one, its digits are not followed by a digit, and it does not start with a
keyword. -/
def FitsBefore (rest : List Char) : Lexeme → Prop
  | opening | closing => True
  | connective _ => startsWord rest = false
  | condition text => ∃ phrase : Phrase, phrase.WellFormed ∧ text = String.ofList phrase.source ∧
      phrase.spelling.EndsBefore rest ∧ StartsNoKeyword phrase.source

/-- A phrase starts with no keyword iff its name is none: blanks and relations end words. -/
theorem startsNoKeyword_source_iff {phrase : Phrase} (h : phrase.WellFormed) :
    StartsNoKeyword phrase.source ↔
      ∀ keyword : Connective, phrase.field ≠ keyword.word.toList := by
  have hbehind := Phrase.stops_isWord_behind_field h (phrase.after ++ phrase.spelling.source)
  have hsource : phrase.source = phrase.field ++ (phrase.before ++
      (phrase.relation.symbol.toList ++ (phrase.after ++ phrase.spelling.source))) := by
    simp [Phrase.source]
  constructor
  · intro hstart keyword hfield
    cases hcons : phrase.before ++ (phrase.relation.symbol.toList ++
        (phrase.after ++ phrase.spelling.source)) with
    | nil =>
      cases hrelation : phrase.relation <;> simp [hrelation, Relation.symbol] at hcons
    | cons c rest =>
      rw [hcons] at hsource hbehind
      have hword := hstart keyword c rest (by rw [hsource, hfield])
      rw [hbehind c rfl] at hword
      simp at hword
  · intro hfield keyword c rest hstart
    cases hword : Text.isWord c with
    | true => rfl
    | false =>
      have hnone := Connective.start?_name_append h.field hfield (Phrase.stops_behind_field h
        (phrase.after ++ phrase.spelling.source))
      have hsome : Connective.start? (keyword.word.toList ++ c :: rest) = some keyword :=
        Connective.start?_eq_some_iff.mpr ⟨c :: rest, rfl, hword⟩
      rw [← hsource, hstart, hsome] at hnone
      simp at hnone

/-- The lexeme that a text starts with is the one that is written there and fits. -/
theorem start?_eq_some_iff {cs : List Char} {lexeme : Lexeme} :
    start? cs = some lexeme ↔
      ∃ rest, cs = lexeme.text.toList ++ rest ∧ lexeme.FitsBefore rest := by
  constructor
  · intro h
    cases cs with
    | nil => simp [start?, Connective.start?, Phrase.span?, spanName?] at h
    | cons c cs =>
      by_cases hopening : c = '('
      · subst hopening
        obtain rfl := Option.some.inj h
        exact ⟨cs, rfl, trivial⟩
      by_cases hclosing : c = ')'
      · subst hclosing
        obtain rfl := Option.some.inj h
        exact ⟨cs, rfl, trivial⟩
      rw [start?_cons hopening hclosing] at h
      cases hkeyword : Connective.start? (c :: cs) with
      | some keyword =>
        rw [hkeyword] at h
        obtain rfl := Option.some.inj h
        exact Connective.start?_eq_some_iff.mp hkeyword
      | none =>
        rw [hkeyword] at h
        obtain ⟨⟨phrase, rest⟩, hspan, rfl⟩ := Option.map_eq_some_iff.mp h
        obtain ⟨hphrase, hends⟩ := Phrase.wellFormed_of_span? hspan
        have happend := Phrase.append_of_span? hspan
        refine ⟨rest, ?_, phrase, hphrase, rfl, hends, ?_⟩
        · rw [text, String.toList_ofList, happend]
        · rw [← happend] at hkeyword
          exact (startsNoKeyword_source_iff hphrase).mpr (Phrase.field_ne_word hphrase hkeyword)
  · rintro ⟨rest, rfl, hfits⟩
    cases lexeme with
    | opening => rfl
    | closing => rfl
    | connective keyword => exact start?_word_append keyword hfits
    | condition text =>
      obtain ⟨phrase, hphrase, rfl, hends, hkeyword⟩ := hfits
      rw [Lexeme.text, String.toList_ofList]
      exact start?_source_append hphrase ((startsNoKeyword_source_iff hphrase).mp hkeyword) hends

/-- A lexeme still fits where the text goes on behind its end, but not with a word. -/
theorem FitsBefore.append {lexeme : Lexeme} {tail rest : List Char} (h : lexeme.FitsBefore tail)
    (hrest : startsWord rest = false) : lexeme.FitsBefore (tail ++ rest) := by
  have hstops : Stops Text.isWord rest := Text.startsWord_eq_false_iff.mp hrest
  cases lexeme with
  | opening => trivial
  | closing => trivial
  | connective keyword =>
    have hend : startsWord tail = false := h
    exact Text.startsWord_eq_false_iff.mpr
      ((Text.startsWord_eq_false_iff.mp hend).append hstops)
  | condition text =>
    obtain ⟨phrase, hphrase, htext, hends, hkeyword⟩ := h
    exact ⟨phrase, hphrase, htext, hends.append (hstops.of_subclass isWord_of_isDigit), hkeyword⟩

/-- A lexeme is found at the start of a text also where the text goes on, but not with a word. -/
theorem start?_append {cs rest : List Char} {lexeme : Lexeme} (h : start? cs = some lexeme)
    (hrest : startsWord rest = false) : start? (cs ++ rest) = some lexeme := by
  obtain ⟨tail, rfl, hfits⟩ := start?_eq_some_iff.mp h
  exact start?_eq_some_iff.mpr ⟨tail ++ rest, List.append_assoc .., hfits.append hrest⟩

/-! ## Where lexemes start -/

/-- A lexeme starts the text: a parenthesis, a keyword that ends, or a condition. -/
inductive StartsLexeme : List Char → Prop where
  | opening (rest : List Char) : StartsLexeme ('(' :: rest)
  | closing (rest : List Char) : StartsLexeme (')' :: rest)
  | connective (keyword : Connective) {rest : List Char} (h : startsWord rest = false) :
      StartsLexeme (keyword.word.toList ++ rest)
  | condition {phrase : Phrase} (h : phrase.WellFormed) (rest : List Char) :
      StartsLexeme (phrase.source ++ rest)

/-- A literal that stands at the start of a text goes on to where it ends there. -/
theorem exists_spelling_endsBefore {spelling : Spelling} (h : spelling.WellFormed)
    (rest : List Char) :
    ∃ (longest : Spelling) (tail : List Char), longest.WellFormed ∧ longest.EndsBefore tail ∧
      spelling.source ++ rest = longest.source ++ tail := by
  cases spelling with
  | quoted quote body => exact ⟨.quoted quote body, rest, h, trivial, rfl⟩
  | digits body =>
    obtain ⟨hne, hdigits⟩ := h
    refine ⟨.digits (body ++ rest.takeWhile Char.isDigit), rest.dropWhile Char.isDigit,
      ⟨by simp [hne], ?_⟩, Text.stops_dropWhile, ?_⟩
    · exact List.forall_mem_append.mpr ⟨hdigits, List.all_eq_true.mp List.all_takeWhile⟩
    · show body ++ rest = body ++ rest.takeWhile Char.isDigit ++ rest.dropWhile Char.isDigit
      rw [List.append_assoc, List.takeWhile_append_dropWhile]

/-- A lexeme is found at the start of a text iff one starts there. -/
theorem start?_ne_none_iff {cs : List Char} : start? cs ≠ none ↔ StartsLexeme cs := by
  constructor
  · intro h
    obtain ⟨lexeme, hlexeme⟩ := Option.ne_none_iff_exists'.mp h
    obtain ⟨rest, rfl, hfits⟩ := start?_eq_some_iff.mp hlexeme
    cases lexeme with
    | opening => exact .opening rest
    | closing => exact .closing rest
    | connective keyword => exact .connective keyword hfits
    | condition text =>
      obtain ⟨phrase, hphrase, rfl, -, -⟩ := hfits
      rw [text, String.toList_ofList]
      exact .condition hphrase rest
  · intro h
    cases h with
    | opening rest => exact Option.some_ne_none _
    | closing rest => exact Option.some_ne_none _
    | connective keyword hend =>
      rw [start?_word_append keyword hend]
      exact Option.some_ne_none _
    | @condition phrase hphrase rest =>
      obtain ⟨longest, tail, hlongest, hends, hsource⟩ :=
        exists_spelling_endsBefore hphrase.spelling rest
      let whole : Phrase := { phrase with spelling := longest }
      have hwhole : whole.WellFormed := ⟨hphrase.field, hphrase.before, hphrase.after, hlongest⟩
      have hsplit : phrase.source ++ rest = whole.source ++ tail := by
        simp only [Phrase.source, List.append_assoc, hsource, whole]
      rw [hsplit]
      cases hkeyword : Connective.start? (whole.source ++ tail) with
      | none =>
        rw [start?_source_append hwhole (Phrase.field_ne_word hwhole hkeyword) hends]
        exact Option.some_ne_none _
      | some keyword =>
        obtain ⟨behind, hbehind, hend⟩ := Connective.start?_eq_some_iff.mp hkeyword
        rw [hbehind, start?_word_append keyword hend]
        exact Option.some_ne_none _

end Lexeme

end Criteria
