import Criteria.Lexeme
import Criteria.Proofs.Runs

/-!
# Phrases are found where they are written

A phrase that is made as it should be is found at the start of every text that its source starts,
provided that the text does not go on with a digit where the phrase ends with one
(`Phrase.span?_source_append`). The same holds for the parts of a phrase: a name stops before a
character that cannot go on with it, a relation before anything but an equality sign, a quoted
literal behind its mark. Whatever is found is made as it should be (`Phrase.wellFormed_of_span?`). A
phrase whose name is no keyword is also found as a lexeme.
-/

namespace Criteria

open Number (Binary64 natOfDigits spanDigits)
open Text (isBlank ne_of_class Stops stops_nil stops_cons stops_dropWhile
  takeWhile_append_of_stops dropWhile_append_of_stops)

/-! ## Classes of characters -/

theorem isWord_of_continuesName {c : Char} (h : continuesName c = true) :
    Text.isWord c = true := by
  rw [continuesName, Bool.or_eq_true] at h
  rcases h with halphanum | hunderscore
  · exact Text.isWord_of_isAlphanum halphanum
  · obtain rfl := eq_of_beq hunderscore
    decide +kernel

theorem isWord_of_isDigit {c : Char} (h : c.isDigit = true) : Text.isWord c = true :=
  Text.isWord_of_isAlphanum (by simp [Char.isAlphanum, h])

theorem isBlank_space : isBlank ' ' = true := by
  decide +kernel

/-- No blank can be part of a name. -/
theorem continuesName_of_isBlank {c : Char} (h : isBlank c = true) : continuesName c = false :=
  Text.not_of_subclass isWord_of_continuesName (Text.isWord_eq_false_of_isBlank h)

theorem continuesName_of_startsName {c : Char} (h : startsName c = true) :
    continuesName c = true := by
  rw [startsName, Bool.or_eq_true] at h
  rw [continuesName, Char.isAlphanum]
  rcases h with halpha | hunderscore
  · simp [halpha]
  · simp [hunderscore]

/-! ## Names -/

/-- The characters are a name: an ASCII letter or underscore, and letters, digits and underscores
behind it. -/
def isName : List Char → Bool
  | [] => false
  | c :: cs => startsName c && cs.all continuesName

theorem isName_eq_cons {cs : List Char} (h : isName cs = true) :
    ∃ c rest, cs = c :: rest ∧ startsName c = true ∧ ∀ d ∈ rest, continuesName d = true := by
  cases cs with
  | nil => simp [isName] at h
  | cons c rest =>
    simp only [isName, Bool.and_eq_true, List.all_eq_true] at h
    exact ⟨c, rest, rfl, h⟩

theorem isName_of_spanName? {cs name rest : List Char} (h : spanName? cs = some (name, rest)) :
    isName name = true := by
  cases cs with
  | nil => simp [spanName?] at h
  | cons c cs =>
    rw [spanName?] at h
    split at h
    · next hc =>
      obtain ⟨rfl, -⟩ := Prod.mk.inj (Option.some.inj h)
      rw [isName, hc, Bool.true_and, List.all_takeWhile]
    · simp at h

theorem spanName?_append {name rest : List Char} (hname : isName name = true)
    (hstops : Stops continuesName rest) : spanName? (name ++ rest) = some (name, rest) := by
  obtain ⟨c, cs, rfl, hfirst, hothers⟩ := isName_eq_cons hname
  rw [List.cons_append, spanName?, if_pos hfirst, takeWhile_append_of_stops hothers hstops,
    dropWhile_append_of_stops hothers hstops]

/-! ## Relations -/

theorem Relation.span?_append (relation : Relation) {rest : List Char}
    (hstops : Stops (· == '=') rest) :
    Relation.span? (relation.symbol.toList ++ rest) = some (relation, rest) := by
  cases rest with
  | nil => cases relation <;> rfl
  | cons c rest =>
    have hc : c ≠ '=' := by simpa using hstops c rfl
    cases relation <;> simp [Relation.symbol, Relation.span?, hc]

/-- What stops before every character that a relation may start with stops before a relation. -/
theorem Relation.stops_symbol (relation : Relation) {p : Char → Bool}
    (hp : ['=', '!', '>', '<'].all (fun c => !p c) = true) (rest : List Char) :
    Stops p (relation.symbol.toList ++ rest) := by
  intro c hc
  have hfree : ∀ d ∈ ['=', '!', '>', '<'], p d = false := by simpa using hp
  apply hfree
  cases relation <;> simp [Relation.symbol] at hc <;> simp [← hc]

/-! ## Literals -/

theorem isDigit_of_isBlank {c : Char} (h : isBlank c = true) : c.isDigit = false := by
  have hname := continuesName_of_isBlank h
  simp only [continuesName, Char.isAlphanum, Bool.or_eq_false_iff] at hname
  exact hname.1.2

namespace Spelling

/-- A literal is written as it should be: no mark of the kind stands between the marks, and there
are digits where it is written without marks. -/
def WellFormed : Spelling → Prop
  | quoted quote body => quote.mark ∉ body
  | digits body => body ≠ [] ∧ ∀ c ∈ body, c.isDigit = true

/-- The literal ends where the text goes on: digits would go on with a digit. -/
def EndsBefore (rest : List Char) : Spelling → Prop
  | quoted _ _ => True
  | digits _ => Stops Char.isDigit rest

/-- Digits mean the number that they stand for, between marks or not. -/
theorem literal_of_digits {spelling : Spelling} (hne : spelling.body ≠ [])
    (hdigits : ∀ c ∈ spelling.body, c.isDigit = true) :
    spelling.literal = .number (.ofNat (natOfDigits spelling.body)) := by
  rw [literal, if_pos ⟨hne, List.all_eq_true.mpr hdigits⟩]

/-- What is not digits is a text as it stands. -/
theorem literal_of_not_digits {spelling : Spelling}
    (h : ¬ (spelling.body ≠ [] ∧ ∀ c ∈ spelling.body, c.isDigit = true)) :
    spelling.literal = .text (String.ofList spelling.body) := by
  rw [literal, if_neg fun hall => h ⟨hall.1, List.all_eq_true.mp hall.2⟩]

theorem endsBefore_nil (spelling : Spelling) : spelling.EndsBefore [] := by
  cases spelling with
  | quoted quote body => trivial
  | digits body => exact stops_nil

theorem span?_source_append {spelling : Spelling} (h : spelling.WellFormed) {rest : List Char}
    (hends : spelling.EndsBefore rest) :
    span? (spelling.source ++ rest) = some (spelling, rest) := by
  cases spelling with
  | quoted quote body =>
    have hbody : ∀ c ∈ body, (c != quote.mark) = true := by
      intro c hc
      have hne : c ≠ quote.mark := fun heq => h (heq ▸ hc)
      simpa using hne
    have hstops : Stops (· != quote.mark) (quote.mark :: rest) := stops_cons (by simp)
    have hquoted : spanQuoted? quote (body ++ quote.mark :: rest) =
        some (quoted quote body, rest) := by
      rw [spanQuoted?, dropWhile_append_of_stops hbody hstops,
        takeWhile_append_of_stops hbody hstops]
    have hsource : (quoted quote body).source ++ rest =
        quote.mark :: (body ++ quote.mark :: rest) := by simp [source]
    rw [hsource]
    cases quote with
    | single => exact hquoted
    | double => exact hquoted
  | digits body =>
    obtain ⟨hne, hdigits⟩ := h
    have hspan : spanDigits (body ++ rest) = (body, rest) :=
      Text.spanDigits_append hdigits hends
    cases body with
    | nil => exact absurd rfl hne
    | cons c cs =>
      -- a digit is neither mark, so the text is read as digits
      have hc : c.isDigit = true := hdigits c List.mem_cons_self
      have hsingle : c ≠ '\'' := ne_of_class hc (by decide)
      have hdouble : c ≠ '"' := ne_of_class hc (by decide)
      rw [List.cons_append] at hspan
      rw [source, List.cons_append, span?, hspan]
      · intro rest' heq
        exact hsingle (List.cons.inj heq).1
      · intro rest' heq
        exact hdouble (List.cons.inj heq).1

/-- What stops before digits and marks stops before a literal. -/
theorem stops_source {spelling : Spelling} (h : spelling.WellFormed) {p : Char → Bool}
    (hsingle : p '\'' = false) (hdouble : p '"' = false)
    (hdigit : ∀ c, c.isDigit = true → p c = false) (rest : List Char) :
    Stops p (spelling.source ++ rest) := by
  cases spelling with
  | quoted quote body =>
    cases quote with
    | single => exact stops_cons hsingle
    | double => exact stops_cons hdouble
  | digits body =>
    obtain ⟨hne, hdigits⟩ := h
    cases body with
    | nil => exact absurd rfl hne
    | cons c cs => exact stops_cons (hdigit c (hdigits c List.mem_cons_self))

theorem wellFormed_of_spanQuoted? {quote : Quote} {cs rest : List Char} {spelling : Spelling}
    (h : spanQuoted? quote cs = some (spelling, rest)) :
    spelling.WellFormed ∧ spelling.EndsBefore rest := by
  unfold spanQuoted? at h
  split at h
  · simp at h
  · obtain ⟨rfl, rfl⟩ := Prod.mk.inj (Option.some.inj h)
    refine ⟨fun hmark => ?_, trivial⟩
    have hne := List.all_eq_true.mp List.all_takeWhile _ hmark
    simp at hne

/-- A literal that is found is written as it should be, and ends where it is found to end. -/
theorem wellFormed_of_span? {cs rest : List Char} {spelling : Spelling}
    (h : span? cs = some (spelling, rest)) : spelling.WellFormed ∧ spelling.EndsBefore rest := by
  unfold span? at h
  split at h
  · exact wellFormed_of_spanQuoted? h
  · exact wellFormed_of_spanQuoted? h
  · split at h
    · simp at h
    · next body tail hne hspan =>
      obtain ⟨rfl, rfl⟩ := Prod.mk.inj (Option.some.inj h)
      obtain ⟨rfl, rfl⟩ := Prod.mk.inj hspan
      exact ⟨⟨hne, List.all_eq_true.mp List.all_takeWhile⟩, stops_dropWhile⟩

/-- A literal still ends where the text goes on behind its end, but not with a digit. -/
theorem EndsBefore.append {spelling : Spelling} {tail rest : List Char}
    (h : spelling.EndsBefore tail) (hrest : Stops Char.isDigit rest) :
    spelling.EndsBefore (tail ++ rest) := by
  cases spelling with
  | quoted quote body => trivial
  | digits body => exact Stops.append h hrest

end Spelling

/-! ## Phrases -/

namespace Phrase

/-- A phrase is made as it should be. -/
structure WellFormed (phrase : Phrase) : Prop where
  field : isName phrase.field = true
  before : ∀ c ∈ phrase.before, isBlank c = true
  after : ∀ c ∈ phrase.after, isBlank c = true
  spelling : phrase.spelling.WellFormed

/-- Blanks stop what blanks stop, and otherwise it is what follows them that does. -/
theorem stops_blanks {p : Char → Bool} (hp : ∀ c, isBlank c = true → p c = false)
    {blanks rest : List Char} (hblanks : ∀ c ∈ blanks, isBlank c = true) (hrest : Stops p rest) :
    Stops p (blanks ++ rest) := by
  cases blanks with
  | nil => exact hrest
  | cons c cs => exact stops_cons (hp c (hblanks c List.mem_cons_self))

/-- A phrase does not start with a blank, whatever follows it. -/
theorem stops_source_append {phrase : Phrase} (h : phrase.WellFormed) (rest : List Char) :
    Stops isBlank (phrase.source ++ rest) := by
  obtain ⟨c, cs, hname, hfirst, -⟩ := isName_eq_cons h.field
  have hc : isBlank c = false :=
    Text.not_of_disjoint continuesName_of_isBlank (continuesName_of_startsName hfirst)
  rw [source, hname]
  exact stops_cons hc

theorem stops_source {phrase : Phrase} (h : phrase.WellFormed) : Stops isBlank phrase.source := by
  simpa using stops_source_append h []

/-- No word goes on at the blanks or the relation behind the name of a phrase. -/
theorem stops_isWord_behind_field {phrase : Phrase} (h : phrase.WellFormed) (rest : List Char) :
    Stops Text.isWord (phrase.before ++ (phrase.relation.symbol.toList ++ rest)) :=
  stops_blanks (fun c => Text.isWord_eq_false_of_isBlank) h.before
    (Relation.stops_symbol _ (by decide +kernel) rest)

/-- The name of a phrase stops at the blanks or at the relation behind it. -/
theorem stops_behind_field {phrase : Phrase} (h : phrase.WellFormed) (rest : List Char) :
    Stops continuesName (phrase.before ++ (phrase.relation.symbol.toList ++ rest)) :=
  (stops_isWord_behind_field h rest).of_subclass isWord_of_continuesName

/-- A phrase is found at the start of every text that goes on behind it. -/
theorem span?_source_append {phrase : Phrase} (h : phrase.WellFormed) {rest : List Char}
    (hends : phrase.spelling.EndsBefore rest) :
    span? (phrase.source ++ rest) = some (phrase, rest) := by
  let literal := phrase.spelling.source ++ rest
  let behind := phrase.relation.symbol.toList ++ (phrase.after ++ literal)
  have hsource : phrase.source ++ rest = phrase.field ++ (phrase.before ++ behind) := by
    simp [source, behind, literal]
  have hliteral : ∀ p : Char → Bool, p '\'' = false → p '"' = false →
      (∀ c, c.isDigit = true → p c = false) → Stops p literal :=
    fun p hsingle hdouble hdigit =>
      Spelling.stops_source h.spelling hsingle hdouble hdigit rest
  have hname : spanName? (phrase.field ++ (phrase.before ++ behind)) =
      some (phrase.field, phrase.before ++ behind) :=
    spanName?_append h.field (stops_behind_field h _)
  have hbehind : Stops isBlank behind := Relation.stops_symbol _ (by decide) _
  have hrelation : Relation.span? behind = some (phrase.relation, phrase.after ++ literal) := by
    refine Relation.span?_append _ (stops_blanks ?_ h.after (hliteral _ rfl rfl ?_))
    · intro c hc
      exact beq_false_of_ne (ne_of_class hc (by decide))
    · intro c hc
      exact beq_false_of_ne (ne_of_class hc (by decide))
  have hblank : Stops isBlank literal := by
    refine hliteral _ (by decide) (by decide) ?_
    intro c hdigit
    exact Text.not_of_disjoint isDigit_of_isBlank hdigit
  rw [hsource, span?, hname]
  simp only [Option.bind_eq_bind, Option.bind_some,
    dropWhile_append_of_stops h.before hbehind, takeWhile_append_of_stops h.before hbehind,
    hrelation, dropWhile_append_of_stops h.after hblank, takeWhile_append_of_stops h.after hblank,
    Spelling.span?_source_append h.spelling hends, literal]

/-- A phrase that is found is made as it should be, and its literal ends where it is found to
end. -/
theorem wellFormed_of_span? {cs rest : List Char} {phrase : Phrase}
    (h : span? cs = some (phrase, rest)) : phrase.WellFormed ∧ phrase.spelling.EndsBefore rest := by
  simp only [span?, Option.bind_eq_bind, Option.bind_eq_some_iff, Option.some.injEq,
    Prod.mk.injEq, Prod.exists] at h
  obtain ⟨field, afterField, hfield, relation, afterRelation, hrelation, spelling, tail,
    hspelling, rfl, rfl⟩ := h
  obtain ⟨hwritten, hends⟩ := Spelling.wellFormed_of_span? hspelling
  exact ⟨⟨isName_of_spanName? hfield, List.all_eq_true.mp List.all_takeWhile,
    List.all_eq_true.mp List.all_takeWhile, hwritten⟩, hends⟩

end Phrase

namespace Condition

/-- What a text is read as is the meaning of a phrase that is made as it should be. -/
theorem exists_phrase_of_ofText {text : String} {condition : Condition}
    (h : ofText text = .ok condition) :
    ∃ phrase : Phrase, phrase.WellFormed ∧ condition = phrase.condition := by
  unfold ofText at h
  split at h
  · next phrase rest hspan =>
    split at h
    · obtain rfl := Except.ok.inj h
      exact ⟨phrase, (Phrase.wellFormed_of_span? hspan).1, rfl⟩
    · simp at h
  · simp at h

theorem isName_of_ofText {text : String} {condition : Condition}
    (h : ofText text = .ok condition) : isName condition.field.toList = true := by
  obtain ⟨phrase, hphrase, rfl⟩ := exists_phrase_of_ofText h
  rw [Phrase.condition, String.toList_ofList]
  exact hphrase.field

/-- A number that is read is the one nearest to a natural number. -/
theorem exists_ofNat_of_ofText {text : String} {condition : Condition}
    (h : ofText text = .ok condition) {value : Binary64} (hvalue : condition.value = .number value) :
    ∃ n, value = .ofNat n := by
  obtain ⟨phrase, -, rfl⟩ := exists_phrase_of_ofText h
  rw [Phrase.condition, Spelling.literal] at hvalue
  split at hvalue
  · exact ⟨_, (Literal.number.inj hvalue).symm⟩
  · simp at hvalue

/-- The text of a phrase is read as the condition that is meant. -/
theorem ofText_source {phrase : Phrase} (h : phrase.WellFormed) :
    ofText (String.ofList phrase.source) = .ok phrase.condition := by
  have hspan := Phrase.span?_source_append h phrase.spelling.endsBefore_nil
  rw [List.append_nil] at hspan
  have hstrip : Text.stripStart phrase.source = phrase.source :=
    dropWhile_append_of_stops (List.forall_mem_nil _) (Phrase.stops_source h)
  rw [ofText, String.toList_ofList, hstrip, hspan]
  show (if List.all [] isBlank = true then Except.ok phrase.condition else _) = _
  rw [if_pos List.all_nil]

end Condition

/-! ## Lexemes -/

/-- A keyword is found where its word stands and ends. -/
theorem Connective.start?_eq_some_iff {cs : List Char} {connective : Connective} :
    Connective.start? cs = some connective ↔
      ∃ rest, cs = connective.word.toList ++ rest ∧ Text.startsWord rest = false := by
  constructor
  · intro h
    unfold Connective.start? at h
    split at h
    · next rest =>
      split at h
      · simp at h
      · next hend =>
        obtain rfl := Option.some.inj h
        exact ⟨rest, by simp [word], by simpa using hend⟩
    · next rest =>
      split at h
      · simp at h
      · next hend =>
        obtain rfl := Option.some.inj h
        exact ⟨rest, by simp [word], by simpa using hend⟩
    · simp at h
  · rintro ⟨rest, rfl, hend⟩
    cases connective <;> simp [word, Connective.start?, hend]

theorem Text.startsWord_eq_false_iff {rest : List Char} :
    startsWord rest = false ↔ Stops isWord rest := by
  cases rest with
  | nil => exact ⟨fun _ => stops_nil, fun _ => rfl⟩
  | cons c rest => exact ⟨fun h => stops_cons h, fun h => h c rfl⟩

/-- No name ends where a word goes on. -/
theorem stops_continuesName {rest : List Char} (h : Text.startsWord rest = false) :
    Stops continuesName rest :=
  (Text.startsWord_eq_false_iff.mp h).of_subclass isWord_of_continuesName

theorem isName_word (connective : Connective) : isName connective.word.toList = true := by
  cases connective <;> decide

/-- A name that is no keyword does not start with one that ends. -/
theorem Connective.start?_name_append {name rest : List Char} (hname : isName name = true)
    (hkeyword : ∀ connective : Connective, name ≠ connective.word.toList)
    (hstops : Stops continuesName rest) : Connective.start? (name ++ rest) = none := by
  cases hfound : Connective.start? (name ++ rest) with
  | none => rfl
  | some connective =>
    -- the keyword would be the name, as both are the longest name at the start of the text
    obtain ⟨rest', hsplit, hend⟩ := Connective.start?_eq_some_iff.mp hfound
    have hspan := spanName?_append hname hstops
    rw [hsplit, spanName?_append (isName_word connective) (stops_continuesName hend)] at hspan
    have hword := (Prod.mk.inj (Option.some.inj hspan)).1
    exact absurd hword.symm (hkeyword connective)

namespace Lexeme

/-- What does not start with a parenthesis is a keyword, else a condition or nothing. -/
theorem start?_cons {c : Char} (hopening : c ≠ '(') (hclosing : c ≠ ')') (cs : List Char) :
    start? (c :: cs) =
      match Connective.start? (c :: cs) with
      | some found => some (connective found)
      | none => (Phrase.span? (c :: cs)).map fun found =>
          condition (String.ofList found.1.source) := by
  unfold start?
  split
  · next heq => exact absurd (List.cons.inj heq).1 hopening
  · next heq => exact absurd (List.cons.inj heq).1 hclosing
  · rfl

/-- A phrase whose name is no keyword is found as a lexeme. -/
theorem start?_source_append {phrase : Phrase} (h : phrase.WellFormed)
    (hkeyword : ∀ connective : Connective, phrase.field ≠ connective.word.toList)
    {rest : List Char} (hends : phrase.spelling.EndsBefore rest) :
    start? (phrase.source ++ rest) = some (condition (String.ofList phrase.source)) := by
  have hspan := Phrase.span?_source_append h hends
  have hconnective : Connective.start? (phrase.source ++ rest) = none := by
    have hstops := Phrase.stops_behind_field h (phrase.after ++ phrase.spelling.source ++ rest)
    have hnone := Connective.start?_name_append h.field hkeyword hstops
    simpa [Phrase.source] using hnone
  obtain ⟨c, cs, hname, hc, -⟩ := isName_eq_cons h.field
  have hcons : phrase.source ++ rest =
      c :: (cs ++ (phrase.before ++ (phrase.relation.symbol.toList ++
        (phrase.after ++ (phrase.spelling.source ++ rest))))) := by
    simp [Phrase.source, hname]
  rw [hcons] at hspan hconnective ⊢
  rw [start?_cons (ne_of_class hc (by decide)) (ne_of_class hc (by decide)), hconnective, hspan]
  rfl

/-- A keyword is found as a lexeme where its word ends. -/
theorem start?_word_append (keyword : Connective) {rest : List Char}
    (hend : Text.startsWord rest = false) :
    start? (keyword.word.toList ++ rest) = some (connective keyword) := by
  have hfound : Connective.start? (keyword.word.toList ++ rest) = some keyword :=
    Connective.start?_eq_some_iff.mpr ⟨rest, rfl, hend⟩
  obtain ⟨c, cs, hname, hc, -⟩ := isName_eq_cons (isName_word keyword)
  rw [hname, List.cons_append] at hfound ⊢
  rw [start?_cons (ne_of_class hc (by decide)) (ne_of_class hc (by decide)), hfound]

/-- No lexeme starts with a blank. -/
theorem start?_of_isBlank {c : Char} (h : isBlank c = true) (cs : List Char) :
    start? (c :: cs) = none := by
  have hname : startsName c = false :=
    Text.not_of_subclass continuesName_of_startsName (continuesName_of_isBlank h)
  have hconnective : Connective.start? (c :: cs) = none := by
    cases hfound : Connective.start? (c :: cs) with
    | none => rfl
    | some connective =>
      obtain ⟨rest, hsplit, -⟩ := Connective.start?_eq_some_iff.mp hfound
      cases connective <;> simp [Connective.word] at hsplit <;>
        exact absurd h (by rw [hsplit.1]; decide)
  rw [start?_cons (ne_of_class h (by decide)) (ne_of_class h (by decide)), hconnective,
    Phrase.span?, spanName?, if_neg (by simp [hname])]
  rfl

end Lexeme

end Criteria
