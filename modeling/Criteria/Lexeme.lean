import Criteria.Phrase
import Criteria.Text.Word

/-!
# Lexemes

A rule is made of parentheses, the keywords AND and OR, and conditions. `Lexeme.start?` finds the
lexeme that a text starts with; what it finds is written at the start of the text.
-/

namespace Criteria

/-- A part of a rule. -/
inductive Lexeme where
  | opening
  | closing
  | connective (connective : Connective)
  | condition (text : String)
deriving DecidableEq

/-- The text of a lexeme. -/
def Lexeme.text : Lexeme → String
  | opening => "("
  | closing => ")"
  | connective c => c.word
  | condition text => text

/-- The keyword that a text starts with, which has to end where a word ends. -/
def Connective.start? : List Char → Option Connective
  | 'A' :: 'N' :: 'D' :: rest => if Text.startsWord rest then none else some .and
  | 'O' :: 'R' :: rest => if Text.startsWord rest then none else some .or
  | _ => none

/-- The lexeme that a text starts with: a parenthesis, else a keyword, else a condition. -/
def Lexeme.start? : List Char → Option Lexeme
  | '(' :: _ => some opening
  | ')' :: _ => some closing
  | cs =>
    match Connective.start? cs with
    | some c => some (connective c)
    | none => (Phrase.span? cs).map fun found => condition (String.ofList found.1.source)

theorem Connective.word_of_start? {cs : List Char} {connective : Connective}
    (h : Connective.start? cs = some connective) : ∃ rest, cs = connective.word.toList ++ rest := by
  unfold Connective.start? at h
  split at h
  · split at h
    · simp at h
    · obtain rfl := Option.some.inj h
      exact ⟨_, by simp [word]; rfl⟩
  · split at h
    · simp at h
    · obtain rfl := Option.some.inj h
      exact ⟨_, by simp [word]; rfl⟩
  · simp at h

/-- What is found at the start of a text is written there. -/
theorem Lexeme.text_of_start? {cs : List Char} {lexeme : Lexeme}
    (h : Lexeme.start? cs = some lexeme) : ∃ rest, cs = lexeme.text.toList ++ rest := by
  unfold Lexeme.start? at h
  split at h
  · obtain rfl := Option.some.inj h
    exact ⟨_, by simp [text]; rfl⟩
  · obtain rfl := Option.some.inj h
    exact ⟨_, by simp [text]; rfl⟩
  · split at h
    · next found hfound =>
      obtain rfl := Option.some.inj h
      exact Connective.word_of_start? hfound
    · obtain ⟨⟨phrase, rest⟩, hphrase, rfl⟩ := Option.map_eq_some_iff.1 h
      exact ⟨rest, by simpa [text] using (Phrase.append_of_span? hphrase).symm⟩

/-- What is found at the start of a text is not empty. -/
theorem Lexeme.text_ne_nil_of_start? {cs : List Char} {lexeme : Lexeme}
    (h : Lexeme.start? cs = some lexeme) : lexeme.text.toList ≠ [] := by
  unfold Lexeme.start? at h
  split at h
  · obtain rfl := Option.some.inj h
    simp [text]
  · obtain rfl := Option.some.inj h
    simp [text]
  · split at h
    · next c _ =>
      obtain rfl := Option.some.inj h
      cases c <;> simp [text, Connective.word]
    · obtain ⟨⟨phrase, rest⟩, _, rfl⟩ := Option.map_eq_some_iff.1 h
      cases hrelation : phrase.relation <;>
        simp [text, Phrase.source, hrelation, Relation.symbol]

end Criteria
