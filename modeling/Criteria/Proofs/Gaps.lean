import Criteria.Lexeme.Scan

/-!
# What lies between lexemes

A scan divides a rule into lexemes and characters passed over. Here the places of the lexemes and
the characters passed over are brought together: a character is passed over iff it lies outside
the places of all lexemes. So a rule has no stray text iff every character outside those places is
blank (`strayText?_eq_none_iff`).
-/

namespace Criteria.Lexeme

open Text (isBlank)

/-! ## Characters passed over -/

/-- The gaps hold the characters passed over and no others. -/
theorem mem_flatten_gaps_iff {pieces : List Piece} {c : Char} :
    c ∈ (gaps pieces).flatten ↔ Piece.passed c ∈ pieces := by
  induction pieces with
  | nil => simp [gaps]
  | cons piece pieces ih =>
    cases piece with
    | found lexeme => simpa [gaps] using ih
    | passed d =>
      have hflatten : (gaps (.passed d :: pieces)).flatten = d :: (gaps pieces).flatten := by
        rw [gaps]
        cases gaps pieces <;> rfl
      rw [hflatten, List.mem_cons, List.mem_cons, ih, Piece.passed.injEq]

/-- There is no stray text iff all characters passed over are blank. -/
theorem strayText?_eq_none_iff_passed (pieces : List Piece) :
    strayText? pieces = none ↔ ∀ c, Piece.passed c ∈ pieces → isBlank c = true := by
  -- the first gap that is not blank is missing iff all gaps are blank
  have hstray : strayText? pieces = none ↔ ∀ gap ∈ gaps pieces, ∀ c ∈ gap, isBlank c = true := by
    rw [strayText?, List.find?_eq_none]
    simp [Text.strip_eq_nil_iff]
  rw [hstray]
  constructor
  · intro h c hc
    obtain ⟨gap, hgap, hmem⟩ := List.mem_flatten.mp (mem_flatten_gaps_iff.mpr hc)
    exact h gap hgap c hmem
  · intro h gap hgap c hmem
    exact h c (mem_flatten_gaps_iff.mp (List.mem_flatten.mpr ⟨gap, hgap, hmem⟩))

/-! ## Places -/

/-- The place of a character in a rule, given the characters before it: its first byte. -/
def offset (front : List Char) : Nat :=
  (String.ofList front).utf8ByteSize

theorem offset_nil : offset [] = 0 := rfl

theorem offset_cons (c : Char) (front : List Char) :
    offset (c :: front) = c.utf8Size + offset front := by
  rw [offset, String.ofList_cons, String.utf8ByteSize_append, String.utf8ByteSize_singleton, offset]

theorem offset_append (front middle : List Char) :
    offset (front ++ middle) = offset front + offset middle := by
  rw [offset, String.ofList_append, String.utf8ByteSize_append, offset, offset]

theorem offset_toList (text : String) : offset text.toList = text.utf8ByteSize := by
  rw [offset, String.ofList_toList]

/-- The byte lies in the place of the lexeme. -/
def Occurrence.Covers (occurrence : Occurrence) (byte : Nat) : Prop :=
  occurrence.start ≤ byte ∧ byte < occurrence.stop

/-- Every character of a rule that lies in the place of no lexeme is blank. -/
def BlankOutside (rule : List Char) (occurrences : List Occurrence) : Prop :=
  ∀ (front : List Char) (c : Char) (back : List Char), rule = front ++ c :: back →
    (∀ occurrence ∈ occurrences, ¬ occurrence.Covers (offset front)) → isBlank c = true

/-- The lexemes among pieces are not before the first piece. -/
theorem start_le_of_mem_occurrencesFrom {start : Nat} {pieces : List Piece}
    {occurrence : Occurrence} (h : occurrence ∈ occurrencesFrom start pieces) :
    start ≤ occurrence.start := by
  induction pieces generalizing start with
  | nil => simp [occurrencesFrom] at h
  | cons piece pieces ih =>
    cases piece with
    | passed c =>
      have := ih h
      omega
    | found lexeme =>
      rcases List.mem_cons.mp h with rfl | hmem
      · exact Nat.le_refl start
      · have := ih hmem
        omega

/-- A character outside the places of all lexemes has been passed over. -/
theorem passed_of_outside {pieces : List Piece} {start : Nat} {front back : List Char} {c : Char}
    (hsplit : pieces.flatMap Piece.source = front ++ c :: back)
    (houtside : ∀ occurrence ∈ occurrencesFrom start pieces,
      ¬ occurrence.Covers (start + offset front)) : Piece.passed c ∈ pieces := by
  induction pieces generalizing start front with
  | nil => simp at hsplit
  | cons piece pieces ih =>
    rw [List.flatMap_cons] at hsplit
    cases piece with
    | passed d =>
      cases front with
      | nil =>
        obtain ⟨rfl, -⟩ := List.cons.inj hsplit
        exact List.mem_cons_self
      | cons e front =>
        obtain ⟨rfl, hrest⟩ := List.cons.inj hsplit
        rw [offset_cons, ← Nat.add_assoc] at houtside
        exact List.mem_cons_of_mem _ (ih hrest houtside)
    | found lexeme =>
      -- the character stands behind the lexeme or inside it
      refine List.mem_cons_of_mem _ ?_
      have hbehind : ∀ behind, front = lexeme.text.toList ++ behind →
          pieces.flatMap Piece.source = behind ++ c :: back → Piece.passed c ∈ pieces := by
        rintro behind rfl hrest
        rw [offset_append, offset_toList, ← Nat.add_assoc] at houtside
        exact ih hrest fun occurrence hmem => houtside occurrence (List.mem_cons_of_mem _ hmem)
      rcases List.append_eq_append_iff.mp hsplit with ⟨behind, hfront, hrest⟩ | ⟨inside, htext, hrest⟩
      · exact hbehind behind hfront hrest
      · cases inside with
        | nil => exact hbehind [] (by simpa [Piece.source] using htext.symm) hrest.symm
        | cons d inside =>
          -- the character would be one of the lexeme itself
          obtain ⟨rfl, -⟩ := List.cons.inj hrest
          have hstop : lexeme.text.utf8ByteSize = offset front + (c.utf8Size + offset inside) := by
            rw [← offset_cons, ← offset_append, ← offset_toList]
            exact congrArg offset htext
          have hsize := c.utf8Size_pos
          refine absurd ⟨?_, ?_⟩ (houtside _ List.mem_cons_self)
          · exact Nat.le_add_right start _
          · show start + offset front < start + lexeme.text.utf8ByteSize
            omega

/-- What has been passed over lies outside the places of all lexemes. -/
theorem outside_of_passed {pieces : List Piece} {c : Char} (h : Piece.passed c ∈ pieces)
    (start : Nat) :
    ∃ front back, pieces.flatMap Piece.source = front ++ c :: back ∧
      ∀ occurrence ∈ occurrencesFrom start pieces,
        ¬ occurrence.Covers (start + offset front) := by
  induction pieces generalizing start with
  | nil => simp at h
  | cons piece pieces ih =>
    cases piece with
    | passed d =>
      rcases List.mem_cons.mp h with heq | hmem
      · -- the lexemes that follow start behind the character
        obtain rfl := Piece.passed.inj heq
        refine ⟨[], pieces.flatMap Piece.source, rfl, ?_⟩
        intro occurrence hoccurrence hcovers
        have hstart : start + c.utf8Size ≤ occurrence.start :=
          start_le_of_mem_occurrencesFrom hoccurrence
        have hsize := c.utf8Size_pos
        have hbyte := hcovers.1
        rw [offset_nil] at hbyte
        omega
      · obtain ⟨front, back, hsplit, houtside⟩ := ih hmem (start + d.utf8Size)
        refine ⟨d :: front, back, ?_, ?_⟩
        · rw [List.flatMap_cons, hsplit]
          rfl
        · rwa [offset_cons, ← Nat.add_assoc]
    | found lexeme =>
      have hmem : Piece.passed c ∈ pieces := by simpa using h
      obtain ⟨front, back, hsplit, houtside⟩ := ih hmem (start + lexeme.text.utf8ByteSize)
      refine ⟨lexeme.text.toList ++ front, back, ?_, ?_⟩
      · rw [List.flatMap_cons, hsplit, List.append_assoc]
        rfl
      · rw [offset_append, offset_toList, ← Nat.add_assoc]
        intro occurrence hoccurrence
        rcases List.mem_cons.mp hoccurrence with rfl | hrest
        · intro hcovers
          have hstop : start + lexeme.text.utf8ByteSize + offset front <
            start + lexeme.text.utf8ByteSize := hcovers.2
          omega
        · exact houtside occurrence hrest

/-- A rule has no stray text iff every character outside the places of its lexemes is blank. -/
theorem strayText?_eq_none_iff (cs : List Char) :
    strayText? (pieces cs) = none ↔ BlankOutside cs (occurrencesFrom 0 (pieces cs)) := by
  rw [strayText?_eq_none_iff_passed]
  constructor
  · intro h front c back hsplit houtside
    rw [← flatMap_source_pieces cs] at hsplit
    exact h c (passed_of_outside hsplit (by rwa [Nat.zero_add]))
  · intro h c hc
    obtain ⟨front, back, hsplit, houtside⟩ := outside_of_passed hc 0
    rw [flatMap_source_pieces] at hsplit
    rw [Nat.zero_add] at houtside
    exact h front c back hsplit houtside

/-! ## Scans -/

/-- A lenient scan finds the lexemes among the pieces, and there have to be some. -/
theorem scan_lenient_eq (rule : String) :
    scan .lenient rule =
      if rule.toList.all Text.isBlank then .error .emptyRule
      else if occurrencesFrom 0 (pieces rule.toList) = [] then .error .emptyRule
      else .ok (occurrencesFrom 0 (pieces rule.toList)) := by
  unfold scan
  simp only
  split
  · rfl
  · cases occurrencesFrom 0 (pieces rule.toList) with
    | nil => cases strayText? (pieces rule.toList) <;> rfl
    | cons occurrence rest => cases strayText? (pieces rule.toList) <;> rfl

/-- The strict scan refuses stray text, and does what the lenient scan does where there is none. -/
theorem scan_strict_eq (rule : String) :
    scan .strict rule =
      if rule.toList.all Text.isBlank then .error .emptyRule
      else
        match strayText? (pieces rule.toList) with
        | some text => .error (.unexpectedText (String.ofList text))
        | none => scan .lenient rule := by
  rw [scan_lenient_eq]
  unfold scan
  simp only
  split
  · rfl
  · cases strayText? (pieces rule.toList) with
    | some text => rfl
    | none => cases occurrencesFrom 0 (pieces rule.toList) <;> rfl

end Criteria.Lexeme
