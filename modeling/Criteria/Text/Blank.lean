import Criteria.Text.Ranges

/-!
# White space

A character is blank iff it has the Unicode property White_Space. Blanks separate what a rule is
made of, and a value read from text is read without the blanks around it.
-/

namespace Criteria.Text

/-- The twenty-five characters with the property White_Space. -/
def blanks : Ranges :=
  [(0x09, 0x0D), (0x20, 0x20), (0x85, 0x85), (0xA0, 0xA0), (0x1680, 0x1680), (0x2000, 0x200A),
   (0x2028, 0x2029), (0x202F, 0x202F), (0x205F, 0x205F), (0x3000, 0x3000)]

/-- The character is white space. -/
def isBlank (c : Char) : Bool :=
  blanks.has c

/-- A text without the blanks at its start. -/
def stripStart (cs : List Char) : List Char :=
  cs.dropWhile isBlank

/-- A text without the blanks at its end. -/
def stripEnd (cs : List Char) : List Char :=
  (cs.reverse.dropWhile isBlank).reverse

/-- A text without the blanks around it. -/
def strip (cs : List Char) : List Char :=
  stripEnd (stripStart cs)

/-- The blanks at the start hide nothing that is not blank. -/
theorem all_isBlank_stripStart {cs : List Char} :
    (stripStart cs).all isBlank = cs.all isBlank := by
  induction cs with
  | nil => rfl
  | cons c cs ih =>
    by_cases h : isBlank c = true
    · simpa [stripStart, h] using ih
    · simp [stripStart, h]

theorem stripStart_eq_nil_iff {cs : List Char} :
    stripStart cs = [] ↔ cs.all isBlank = true := by
  induction cs with
  | nil => simp [stripStart]
  | cons c cs ih =>
    by_cases h : isBlank c = true
    · rw [List.all_cons, h, Bool.true_and, ← ih]
      simp only [stripStart, List.dropWhile_cons, h, if_true]
    · simp [stripStart, h]

/-- Nothing is left of a text iff it was blank throughout. -/
theorem strip_eq_nil_iff {cs : List Char} : strip cs = [] ↔ cs.all isBlank = true := by
  rw [← all_isBlank_stripStart, strip, stripEnd, List.reverse_eq_nil_iff]
  show stripStart (stripStart cs).reverse = [] ↔ _
  rw [stripStart_eq_nil_iff, List.all_reverse]

theorem stripStart_eq_self {cs : List Char} (h : ∀ c ∈ cs, isBlank c = false) :
    stripStart cs = cs := by
  cases cs with
  | nil => rfl
  | cons c cs => simp [stripStart, h c List.mem_cons_self]

/-- A text without blanks is not changed. -/
theorem strip_eq_self {cs : List Char} (h : ∀ c ∈ cs, isBlank c = false) : strip cs = cs := by
  have hreverse : stripStart cs.reverse = cs.reverse :=
    stripStart_eq_self fun c hc => h c (List.mem_reverse.1 hc)
  rw [strip, stripStart_eq_self h, stripEnd]
  show (stripStart cs.reverse).reverse = cs
  rw [hreverse, List.reverse_reverse]

end Criteria.Text
