import Criteria.Proofs.Scans

/-!
# The first stray text

The gaps of a rule are what its text holds outside the places of lexemes: before the first, between
neighbours and behind the last (`gapsAround`). Cut out by these places they are the gaps between the
pieces of the rule, so what a strict scan refuses can be said with the places that the lenient scan
gives: it refuses a rule for the first gap in which there is something, and otherwise it finds
what the lenient scan finds (`strict_scan_names_first_stray_gap`).
-/

namespace Criteria.Lexeme

open Text (isBlank)

/-! ## Cutting a text at bytes -/

/-- The characters of a text that start before so many bytes. -/
def takeBytes : Nat → List Char → List Char
  | count + 1, c :: cs => c :: takeBytes (count + 1 - c.utf8Size) cs
  | _, _ => []

/-- The characters of a text but for those that start before so many bytes. -/
def dropBytes : Nat → List Char → List Char
  | count + 1, c :: cs => dropBytes (count + 1 - c.utf8Size) cs
  | _, cs => cs

theorem takeBytes_zero (cs : List Char) : takeBytes 0 cs = [] := by
  unfold takeBytes
  rfl

theorem dropBytes_zero (cs : List Char) : dropBytes 0 cs = cs := by
  unfold dropBytes
  rfl

/-- A character belongs to the bytes before every byte behind it. -/
theorem takeBytes_add (c : Char) (count : Nat) (cs : List Char) :
    takeBytes (c.utf8Size + count) (c :: cs) = c :: takeBytes count cs := by
  have hsize := c.utf8Size_pos
  have hsucc : c.utf8Size + count = c.utf8Size + count - 1 + 1 := by omega
  rw [hsucc, takeBytes, ← hsucc, Nat.add_sub_cancel_left]

theorem dropBytes_add (c : Char) (count : Nat) (cs : List Char) :
    dropBytes (c.utf8Size + count) (c :: cs) = dropBytes count cs := by
  have hsize := c.utf8Size_pos
  have hsucc : c.utf8Size + count = c.utf8Size + count - 1 + 1 := by omega
  rw [hsucc, dropBytes, ← hsucc, Nat.add_sub_cancel_left]

theorem dropBytes_offset_append (front back : List Char) :
    dropBytes (offset front) (front ++ back) = back := by
  induction front with
  | nil => rw [offset_nil, dropBytes_zero, List.nil_append]
  | cons c front ih => rw [offset_cons, List.cons_append, dropBytes_add, ih]

/-! ## Gaps around places -/

/-- What a text that starts at a byte holds before the first place, between two that follow one
another, and behind the last. -/
def gapsAround : Nat → List Char → List Occurrence → List (List Char)
  | _, cs, [] => [cs]
  | start, cs, occurrence :: occurrences =>
    takeBytes (occurrence.start - start) cs ::
      gapsAround occurrence.stop (dropBytes (occurrence.stop - start) cs) occurrences

/-- A character before the first place belongs to the first gap. -/
theorem gapsAround_cons {start : Nat} {c : Char} {occurrences : List Occurrence} (cs : List Char)
    (h : ∀ occurrence ∈ occurrences.head?, start + c.utf8Size ≤ occurrence.start ∧
      occurrence.start ≤ occurrence.stop) :
    ∃ gap others, gapsAround (start + c.utf8Size) cs occurrences = gap :: others ∧
      gapsAround start (c :: cs) occurrences = (c :: gap) :: others := by
  cases occurrences with
  | nil => exact ⟨cs, [], rfl, rfl⟩
  | cons occurrence occurrences =>
    obtain ⟨hstart, hstop⟩ := h occurrence rfl
    refine ⟨_, _, rfl, ?_⟩
    have hgap : occurrence.start - start =
        c.utf8Size + (occurrence.start - (start + c.utf8Size)) := by omega
    have hrest : occurrence.stop - start =
        c.utf8Size + (occurrence.stop - (start + c.utf8Size)) := by omega
    rw [gapsAround, hgap, hrest, takeBytes_add, dropBytes_add]

theorem start_le_stop_of_mem_occurrencesFrom {start : Nat} {pieces : List Piece}
    {occurrence : Occurrence} (h : occurrence ∈ occurrencesFrom start pieces) :
    occurrence.start ≤ occurrence.stop := by
  induction pieces generalizing start with
  | nil => simp [occurrencesFrom] at h
  | cons piece pieces ih =>
    cases piece with
    | passed c => exact ih h
    | found lexeme =>
      rcases List.mem_cons.mp h with rfl | hmem
      · exact Nat.le_add_right _ _
      · exact ih hmem

/-- The gaps between pieces are those around the places of the lexemes among them. -/
theorem gapsAround_occurrencesFrom (start : Nat) (pieces : List Piece) :
    gapsAround start (pieces.flatMap Piece.source) (occurrencesFrom start pieces) =
      gaps pieces := by
  induction pieces generalizing start with
  | nil => rfl
  | cons piece pieces ih =>
    cases piece with
    | passed c =>
      have hhead : ∀ occurrence ∈ (occurrencesFrom (start + c.utf8Size) pieces).head?,
          start + c.utf8Size ≤ occurrence.start ∧ occurrence.start ≤ occurrence.stop := by
        intro occurrence hmem
        have hmem := List.mem_of_mem_head? hmem
        exact ⟨start_le_of_mem_occurrencesFrom hmem, start_le_stop_of_mem_occurrencesFrom hmem⟩
      obtain ⟨gap, others, hrest, hcons⟩ :=
        gapsAround_cons (pieces.flatMap Piece.source) hhead
      rw [ih] at hrest
      rw [gaps, hrest]
      exact hcons
    | found lexeme =>
      have hempty : takeBytes (start - start) (lexeme.text.toList ++ pieces.flatMap Piece.source) =
          [] := by rw [Nat.sub_self, takeBytes_zero]
      have hrest : dropBytes (start + lexeme.text.utf8ByteSize - start)
          (lexeme.text.toList ++ pieces.flatMap Piece.source) = pieces.flatMap Piece.source := by
        rw [Nat.add_sub_cancel_left, ← offset_toList, dropBytes_offset_append]
      rw [List.flatMap_cons, gaps, ← ih (start + lexeme.text.utf8ByteSize)]
      show takeBytes (start - start) (lexeme.text.toList ++ pieces.flatMap Piece.source) ::
        gapsAround (start + lexeme.text.utf8ByteSize)
          (dropBytes (start + lexeme.text.utf8ByteSize - start)
            (lexeme.text.toList ++ pieces.flatMap Piece.source)) _ = _
      rw [hempty, hrest]

/-! ## The first stray gap -/

/-- The lexemes that a lenient scan finds: none where it fails. -/
def lenientOccurrences (rule : String) : List Occurrence :=
  match scan .lenient rule with
  | .ok occurrences => occurrences
  | .error _ => []

/-- The first gap around the lexemes of a rule that is not blank. -/
def strayGap? (rule : String) : Option (List Char) :=
  (gapsAround 0 rule.toList (lenientOccurrences rule)).find? fun gap => !gap.all isBlank

theorem lenientOccurrences_eq (rule : String) :
    lenientOccurrences rule = occurrencesFrom 0 (pieces rule.toList) := by
  unfold lenientOccurrences
  rw [scan_lenient_eq_ite]
  split
  · next hscan =>
    split at hscan
    · simp at hscan
    · exact (Except.ok.inj hscan).symm
  · next hscan =>
    split at hscan
    · next hnil => exact hnil.symm
    · simp at hscan

theorem gapsAround_lenientOccurrences (rule : String) :
    gapsAround 0 rule.toList (lenientOccurrences rule) = gaps (pieces rule.toList) := by
  rw [lenientOccurrences_eq, ← gapsAround_occurrencesFrom 0, flatMap_source_pieces]

/-- The stray text of a rule is its first stray gap without the blanks around it. -/
theorem strayText?_pieces (rule : String) :
    strayText? (pieces rule.toList) = (strayGap? rule).map Text.strip := by
  have hblank : ∀ gap : List Char, decide (Text.strip gap ≠ []) = !gap.all isBlank := by
    intro gap
    cases hall : gap.all isBlank with
    | true =>
      refine decide_eq_false fun hne => hne ?_
      exact Text.strip_eq_nil_iff.mpr hall
    | false =>
      refine decide_eq_true fun hnil => ?_
      rw [Text.strip_eq_nil_iff.mp hnil] at hall
      simp at hall
  rw [strayText?, List.find?_map, strayGap?, gapsAround_lenientOccurrences]
  congr 2
  funext gap
  exact hblank gap

/-- A strict scan of a rule that is not blank succeeds iff the lenient one does and leaves only
blanks outside the lexemes that it finds, and it finds the same; otherwise it names the first gap
that is not blank, without the blanks around it. A blank rule is empty in both modes. -/
theorem strict_scan_names_first_stray_gap (rule : String) :
    if rule.toList.all isBlank = true then ∀ mode, scan mode rule = .error .emptyRule
    else
      (∀ occurrences, scan .strict rule = .ok occurrences ↔
        scan .lenient rule = .ok occurrences ∧ BlankOutside rule.toList occurrences) ∧
      match strayGap? rule with
      | some gap => scan .strict rule = .error (.unexpectedText (String.ofList (Text.strip gap)))
      | none => ∃ occurrences, scan .strict rule = .ok occurrences := by
  split
  · next hblank =>
    intro mode
    cases mode with
    | strict => rw [scan_strict_eq, if_pos hblank]
    | lenient => rw [scan_lenient_eq, if_pos hblank]
  · next hblank =>
    refine ⟨fun occurrences => scan_strict_eq_ok_iff, ?_⟩
    have hstray := strayText?_pieces rule
    have hstrict := scan_strict_eq rule
    rw [if_neg hblank, hstray] at hstrict
    split
    · next gap hgap =>
      rw [hstrict, hgap]
      rfl
    · next hnone =>
      rw [hnone] at hstrict
      -- without lexemes the rule itself would be the gap
      have hne : occurrencesFrom 0 (pieces rule.toList) ≠ [] := by
        intro hnil
        rw [strayGap?, lenientOccurrences_eq, hnil, gapsAround, List.find?_eq_none] at hnone
        have hall := hnone rule.toList List.mem_cons_self
        rw [Bool.not_eq_true, Bool.not_eq_false'] at hall
        exact hblank hall
      rw [scan_lenient_eq_ite, if_neg hne] at hstrict
      exact ⟨_, hstrict⟩

end Criteria.Lexeme
