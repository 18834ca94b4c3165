import Criteria.Number.Notation

/-!
# Runs of characters

A scanner takes the characters of a class for as long as they come. What it takes from a text that
is put together of such characters and a rest is known where the rest does not go on with the
class.
-/

namespace Criteria.Text

/-- A character of a class is none that is outside the class. -/
theorem ne_of_class {p : Char → Bool} {c d : Char} (hc : p c = true) (hd : p d = false) :
    c ≠ d := by
  rintro rfl
  exact absurd hc (by simp [hd])

/-- What is outside a class is outside its subclasses. -/
theorem not_of_subclass {p q : Char → Bool} {c : Char} (hsub : p c = true → q c = true)
    (h : q c = false) : p c = false := by
  rw [Bool.eq_false_iff]
  intro hc
  exact absurd (hsub hc) (by simp [h])

/-- What is in a class is outside the classes that have nothing in common with it. -/
theorem not_of_disjoint {p q : Char → Bool} {c : Char} (hdisjoint : p c = true → q c = false)
    (h : q c = true) : p c = false := by
  rw [Bool.eq_false_iff]
  intro hc
  exact absurd h (by simp [hdisjoint hc])

/-- The text does not start with a character of the class. -/
def Stops (p : Char → Bool) (rest : List Char) : Prop :=
  ∀ c ∈ rest.head?, p c = false

variable {p : Char → Bool} {cs rest : List Char}

theorem stops_nil : Stops p [] := by
  intro c hc
  simp at hc

theorem stops_cons {c : Char} (h : p c = false) : Stops p (c :: rest) := by
  intro d hd
  obtain rfl := Option.some.inj hd
  exact h

theorem stops_dropWhile : Stops p (cs.dropWhile p) := by
  intro c hc
  have hfirst := List.head?_dropWhile_not p cs
  rwa [Option.mem_def.mp hc] at hfirst

theorem Stops.append (h : Stops p cs) (hrest : Stops p rest) : Stops p (cs ++ rest) := by
  cases cs with
  | nil => exact hrest
  | cons c cs => exact h

theorem Stops.of_subclass {q : Char → Bool} (h : Stops p rest)
    (hsub : ∀ {c}, q c = true → p c = true) : Stops q rest :=
  fun c hc => not_of_subclass hsub (h c hc)

theorem takeWhile_append_of_stops (hall : ∀ c ∈ cs, p c = true) (hstops : Stops p rest) :
    (cs ++ rest).takeWhile p = cs := by
  rw [List.takeWhile_append_of_pos hall]
  cases rest with
  | nil => simp
  | cons c rest => simp [hstops c rfl]

theorem dropWhile_append_of_stops (hall : ∀ c ∈ cs, p c = true) (hstops : Stops p rest) :
    (cs ++ rest).dropWhile p = rest := by
  rw [List.dropWhile_append_of_pos hall]
  cases rest with
  | nil => rfl
  | cons c rest => simp [hstops c rfl]

/-- The digits of a text are taken up to something else. -/
theorem spanDigits_append {digits rest : List Char} (hdigits : ∀ c ∈ digits, c.isDigit = true)
    (hrest : Stops Char.isDigit rest) :
    Number.spanDigits (digits ++ rest) = (digits, rest) := by
  rw [Number.spanDigits, takeWhile_append_of_stops hdigits hrest,
    dropWhile_append_of_stops hdigits hrest]

end Criteria.Text
