import Criteria.Fault
import Criteria.Text.Blank

/-!
# Conditions as they are written

A phrase is a condition in the form in which a rule writes it: the name of a field, a relation and
a literal, with blanks around the relation or none. `Phrase.span?` finds the phrase that a text
starts with, and `Phrase.source` is the text of a phrase; a text that starts with a phrase is the
source of that phrase and what follows it.
-/

namespace Criteria

open Number (Binary64 natOfDigits spanDigits)
open Text (isBlank)

/-! ## Names of fields -/

/-- A name starts with an ASCII letter or an underscore. -/
def startsName (c : Char) : Bool :=
  c.isAlpha || c == '_'

/-- A name goes on with ASCII letters, digits and underscores. -/
def continuesName (c : Char) : Bool :=
  c.isAlphanum || c == '_'

/-- The name that a text starts with, and what follows it. -/
def spanName? : List Char → Option (List Char × List Char)
  | [] => none
  | c :: cs =>
    if startsName c then some (c :: cs.takeWhile continuesName, cs.dropWhile continuesName)
    else none

theorem append_of_spanName? {cs name rest : List Char} (h : spanName? cs = some (name, rest)) :
    name ++ rest = cs := by
  cases cs with
  | nil => simp [spanName?] at h
  | cons c cs =>
    simp only [spanName?] at h
    split at h
    · obtain ⟨rfl, rfl⟩ := Prod.mk.inj (Option.some.inj h)
      simp
    · simp at h

/-! ## Relations -/

/-- The relation that a text starts with, and what follows it. Of two that fit it is the longer. -/
def Relation.span? : List Char → Option (Relation × List Char)
  | '=' :: '=' :: rest => some (eqEq, rest)
  | '!' :: '=' :: rest => some (ne, rest)
  | '>' :: '=' :: rest => some (ge, rest)
  | '<' :: '=' :: rest => some (le, rest)
  | '=' :: rest => some (eq, rest)
  | '>' :: rest => some (gt, rest)
  | '<' :: rest => some (lt, rest)
  | _ => none

theorem Relation.append_of_span? {cs rest : List Char} {relation : Relation}
    (h : Relation.span? cs = some (relation, rest)) : relation.symbol.toList ++ rest = cs := by
  unfold Relation.span? at h
  split at h
  case h_8 => simp at h
  all_goals
    obtain ⟨rfl, rfl⟩ := Prod.mk.inj (Option.some.inj h)
    simp [Relation.symbol]

/-! ## Literals -/

/-- The marks between which a literal may stand. -/
inductive Quote where
  | single
  | double
deriving DecidableEq

/-- The character of a mark. -/
def Quote.mark : Quote → Char
  | single => '\''
  | double => '"'

/-- A literal as it is written: between two marks of a kind, or as digits. -/
inductive Spelling where
  | quoted (quote : Quote) (body : List Char)
  | digits (body : List Char)
deriving DecidableEq

namespace Spelling

/-- What is written, without the marks. -/
def body : Spelling → List Char
  | quoted _ body => body
  | digits body => body

/-- What is written, with the marks. -/
def source : Spelling → List Char
  | quoted quote body => quote.mark :: body ++ [quote.mark]
  | digits body => body

/-- The literal that is meant: digits are a number, between marks too, and all else is a text. -/
def literal (spelling : Spelling) : Literal :=
  if spelling.body ≠ [] ∧ spelling.body.all Char.isDigit then
    .number (.ofNat (natOfDigits spelling.body))
  else
    .text (String.ofList spelling.body)

/-- The body of a literal whose first mark has been read, up to the next mark of the kind. -/
def spanQuoted? (quote : Quote) (cs : List Char) : Option (Spelling × List Char) :=
  match cs.dropWhile (· != quote.mark) with
  | [] => none
  | _ :: rest => some (quoted quote (cs.takeWhile (· != quote.mark)), rest)

/-- The literal that a text starts with, and what follows it. -/
def span? : List Char → Option (Spelling × List Char)
  | '\'' :: rest => spanQuoted? .single rest
  | '"' :: rest => spanQuoted? .double rest
  | cs =>
    match spanDigits cs with
    | ([], _) => none
    | (body, rest) => some (digits body, rest)

theorem append_of_spanQuoted? {quote : Quote} {cs rest : List Char} {spelling : Spelling}
    (h : spanQuoted? quote cs = some (spelling, rest)) :
    spelling.source ++ rest = quote.mark :: cs := by
  unfold spanQuoted? at h
  split at h
  · simp at h
  · next c tail hdrop =>
    obtain ⟨rfl, rfl⟩ := Prod.mk.inj (Option.some.inj h)
    have hne : cs.dropWhile (· != quote.mark) ≠ [] := by simp [hdrop]
    have hmark : c = quote.mark := by
      have := List.head_dropWhile_not (· != quote.mark) hne
      simpa [hdrop] using this
    have happend := List.takeWhile_append_dropWhile (p := (· != quote.mark)) (l := cs)
    rw [hdrop, hmark] at happend
    simp [source, happend]

theorem append_of_span? {cs rest : List Char} {spelling : Spelling}
    (h : span? cs = some (spelling, rest)) : spelling.source ++ rest = cs := by
  unfold span? at h
  split at h
  · exact append_of_spanQuoted? h
  · exact append_of_spanQuoted? h
  · split at h
    · simp at h
    · next body tail hspan =>
      obtain ⟨rfl, rfl⟩ := Prod.mk.inj (Option.some.inj h)
      obtain ⟨rfl, rfl⟩ := Prod.mk.inj hspan
      exact List.takeWhile_append_dropWhile

end Spelling

/-! ## Phrases -/

/-- A condition as it is written. -/
structure Phrase where
  field : List Char
  before : List Char
  relation : Relation
  after : List Char
  spelling : Spelling
deriving DecidableEq

namespace Phrase

/-- The text of a phrase. -/
def source (phrase : Phrase) : List Char :=
  phrase.field ++ phrase.before ++ phrase.relation.symbol.toList ++ phrase.after ++
    phrase.spelling.source

/-- The condition that is meant. -/
def condition (phrase : Phrase) : Condition :=
  ⟨String.ofList phrase.field, phrase.relation, phrase.spelling.literal⟩

/-- The phrase that a text starts with, and what follows it. -/
def span? (cs : List Char) : Option (Phrase × List Char) := do
  let (field, cs) ← spanName? cs
  let (relation, ds) ← Relation.span? (cs.dropWhile isBlank)
  let (spelling, rest) ← Spelling.span? (ds.dropWhile isBlank)
  some (⟨field, cs.takeWhile isBlank, relation, ds.takeWhile isBlank, spelling⟩, rest)

/-- A text that starts with a phrase is the source of the phrase and what follows it. -/
theorem append_of_span? {cs rest : List Char} {phrase : Phrase}
    (h : span? cs = some (phrase, rest)) : phrase.source ++ rest = cs := by
  simp only [span?, Option.bind_eq_bind, Option.bind_eq_some_iff, Option.some.injEq,
    Prod.mk.injEq, Prod.exists] at h
  obtain ⟨field, afterField, hfield, relation, afterRelation, hrelation, spelling, tail,
    hspelling, rfl, rfl⟩ := h
  simp only [source, List.append_assoc]
  rw [Spelling.append_of_span? hspelling, List.takeWhile_append_dropWhile,
    Relation.append_of_span? hrelation, List.takeWhile_append_dropWhile,
    append_of_spanName? hfield]

end Phrase

/-- The condition that is all of a text but for the blanks around it. -/
def Condition.ofText (text : String) : Except Fault Condition :=
  match Phrase.span? (Text.stripStart text.toList) with
  | some (phrase, rest) =>
    if rest.all isBlank then .ok phrase.condition else .error (.invalidCondition text)
  | none => .error (.invalidCondition text)

/-- A text is refused with no fault but that it is no condition. -/
theorem Condition.eq_invalidCondition_of_ofText {text : String} {fault : Fault}
    (h : ofText text = .error fault) : fault = .invalidCondition text := by
  unfold ofText at h
  split at h
  · split at h
    · simp at h
    · exact (Except.error.inj h).symm
  · exact (Except.error.inj h).symm

end Criteria
