import Criteria.Proofs.Nearest
import Criteria.Proofs.Phrases

/-!
# Texts that are conditions

A text is a condition if it is a phrase with blanks before and behind it, or none. There is at most
one way to see a text so (`Condition.Writing.unique`), as the reader finds every such way. What is
read is the field and the relation that are written and the literal that is meant; every other text
is refused as a whole (`Condition.ofText_reads_what_is_written`).
-/

namespace Criteria

open Number (Binary64 natOfDigits)
open Text (isBlank dropWhile_append_of_stops stops_nil)

/-! ## What a literal means -/

/-- What is written between the marks, or without marks, means the literal: digits mean the number
nearest to their value, and everything else is meant as it stands. -/
def Spelling.Means (spelling : Spelling) : Literal → Prop
  | .number value =>
    spelling.body ≠ [] ∧ (∀ c ∈ spelling.body, c.isDigit = true) ∧
      value.IsNearest false (natOfDigits spelling.body)
  | .text value =>
    ¬ (spelling.body ≠ [] ∧ ∀ c ∈ spelling.body, c.isDigit = true) ∧ value.toList = spelling.body

theorem Spelling.means_literal (spelling : Spelling) : spelling.Means spelling.literal := by
  by_cases hdigits : spelling.body ≠ [] ∧ ∀ c ∈ spelling.body, c.isDigit = true
  · rw [literal_of_digits hdigits.1 hdigits.2]
    exact ⟨hdigits.1, hdigits.2, Binary64.isNearest_ofNat _⟩
  · rw [literal_of_not_digits hdigits]
    exact ⟨hdigits, String.toList_ofList⟩

namespace Condition

/-! ## Ways to see a text -/

/-- A way to see a text as a condition: a phrase between blanks. -/
structure Writing (text : String) where
  front : List Char
  phrase : Phrase
  back : List Char
  front_blank : ∀ c ∈ front, isBlank c = true
  wellFormed : phrase.WellFormed
  back_blank : ∀ c ∈ back, isBlank c = true
  toList_eq : text.toList = front ++ (phrase.source ++ back)

variable {text : String} {condition : Condition}

namespace Writing

/-- The reader finds the phrase behind the blanks at the start. -/
theorem span?_stripStart (writing : Writing text) :
    Phrase.span? (Text.stripStart text.toList) = some (writing.phrase, writing.back) := by
  have hstrip : Text.stripStart text.toList = writing.phrase.source ++ writing.back := by
    rw [writing.toList_eq]
    exact dropWhile_append_of_stops writing.front_blank
      (Phrase.stops_source_append writing.wellFormed writing.back)
  have hback : Text.Stops Char.isDigit (writing.back ++ []) :=
    Phrase.stops_blanks (fun c => isDigit_of_isBlank) writing.back_blank stops_nil
  rw [List.append_nil] at hback
  rw [hstrip]
  exact Phrase.span?_source_append writing.wellFormed
    (writing.phrase.spelling.endsBefore_nil.append hback)

/-- There is one way at most to see a text as a condition. -/
theorem unique (writing writing' : Writing text) : writing = writing' := by
  -- the phrase and what follows it are what the reader finds, and the rest is before them
  have hspan := writing.span?_stripStart.symm.trans writing'.span?_stripStart
  obtain ⟨hphrase, hback⟩ := Prod.mk.inj (Option.some.inj hspan)
  have hfront : writing.front = writing'.front := by
    have htext := writing.toList_eq.symm.trans writing'.toList_eq
    rw [hphrase, hback] at htext
    exact List.append_cancel_right htext
  cases writing
  cases writing'
  simp_all

end Writing

/-! ## Reading -/

/-- A text that can be seen as a condition is read as the one that is meant. -/
theorem Writing.ofText_eq (writing : Writing text) : ofText text = .ok writing.phrase.condition := by
  rw [ofText, writing.span?_stripStart]
  exact if_pos (List.all_eq_true.mpr writing.back_blank)

/-- A text that is read can be seen as a condition. -/
theorem nonempty_writing_of_ofText (h : ofText text = .ok condition) : Nonempty (Writing text) := by
  unfold ofText at h
  split at h
  · next phrase rest hspan =>
    split at h
    · next hrest =>
      refine ⟨⟨text.toList.takeWhile isBlank, phrase, rest, List.all_eq_true.mp List.all_takeWhile,
        (Phrase.wellFormed_of_span? hspan).1, List.all_eq_true.mp hrest, ?_⟩⟩
      rw [Phrase.append_of_span? hspan]
      exact List.takeWhile_append_dropWhile.symm
    · simp at h
  · simp at h

/-- A text is read iff it is a phrase between blanks, which it is in one way at most. The condition
has the field and the relation of the phrase, and the literal that its spelling means. A text that
is not read is refused as it stands. -/
theorem ofText_reads_what_is_written (text : String) :
    ((∃ condition, ofText text = .ok condition) ↔ Nonempty (Writing text)) ∧
    (∀ writing writing' : Writing text, writing = writing') ∧
    (∀ (writing : Writing text) (condition : Condition), ofText text = .ok condition →
      condition.field.toList = writing.phrase.field ∧
        condition.relation = writing.phrase.relation ∧
        writing.phrase.spelling.Means condition.value) ∧
    (∀ fault, ofText text = .error fault ↔
      IsEmpty (Writing text) ∧ fault = .invalidCondition text) := by
  refine ⟨⟨?_, ?_⟩, Writing.unique, ?_, fun fault => ⟨?_, ?_⟩⟩
  · rintro ⟨condition, hread⟩
    exact nonempty_writing_of_ofText hread
  · rintro ⟨writing⟩
    exact ⟨writing.phrase.condition, writing.ofText_eq⟩
  · intro writing condition hread
    obtain rfl := Except.ok.inj (writing.ofText_eq.symm.trans hread)
    exact ⟨String.toList_ofList, rfl, writing.phrase.spelling.means_literal⟩
  · intro hfault
    refine ⟨⟨fun writing => ?_⟩, eq_invalidCondition_of_ofText hfault⟩
    rw [writing.ofText_eq] at hfault
    simp at hfault
  · rintro ⟨hnone, rfl⟩
    cases hread : ofText text with
    | ok condition =>
      obtain ⟨writing⟩ := nonempty_writing_of_ofText hread
      exact hnone.elim writing
    | error fault => rw [eq_invalidCondition_of_ofText hread]

/-- One pair of quotes is taken away, and digits between quotes are a number. -/
example :
    ofText "a>=\"it's\" " = .ok ⟨"a", .ge, .text "it's"⟩ ∧
    ofText "a = '7'" = .ok ⟨"a", .eq, .number (Binary64.ofNat 7)⟩ :=
  ⟨rfl, rfl⟩

end Condition

end Criteria
