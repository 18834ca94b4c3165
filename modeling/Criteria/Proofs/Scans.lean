import Criteria.Proofs.Lexemes
import Criteria.Proofs.Pieces
import Criteria.Proofs.Strictness

/-!
# Scans find every lexeme

What a scan has to find in a rule is said without scanning (`IsScanFrom`): lexemes that stand where they
are said to stand, one behind the other, such that no lexeme starts outside their places. There is
one way only to find them, the scan from the left in which a parenthesis goes before a keyword and a
keyword before a condition, and the scan of a rule finds them that way (`scan_is_leftmost`).
-/

namespace Criteria.Lexeme

/-! ## What a scan has to find -/

/-- The lexeme with its place, which starts at a byte. -/
def occurrenceAt (start : Nat) (lexeme : Lexeme) : Occurrence :=
  ⟨lexeme, start, start + lexeme.text.utf8ByteSize⟩

theorem stop_occurrenceAt (start : Nat) (lexeme : Lexeme) :
    (occurrenceAt start lexeme).stop = start + offset lexeme.text.toList := by
  rw [offset_toList]
  rfl

/-- The lexeme stands in a text at its place, where the text starts at a byte, and fits there. -/
def Occurrence.StandsIn (start : Nat) (cs : List Char) (occurrence : Occurrence) : Prop :=
  ∃ front back, cs = front ++ (occurrence.lexeme.text.toList ++ back) ∧
    occurrence.lexeme.FitsBefore back ∧ occurrence.start = start + offset front ∧
    occurrence.stop = occurrence.start + occurrence.lexeme.text.utf8ByteSize

/-- The occurrences are what is to be found in a text that starts at a byte: they stand in the text,
each behind the one before, and no lexeme starts outside their places. -/
structure IsScanFrom (start : Nat) (cs : List Char) (occurrences : List Occurrence) : Prop where
  stand : ∀ occurrence ∈ occurrences,
    occurrence.start < occurrence.stop ∧ occurrence.StandsIn start cs
  increasing : occurrences.Pairwise fun first second => first.stop ≤ second.start
  complete : ∀ front back, cs = front ++ back →
    (∀ occurrence ∈ occurrences, ¬ occurrence.Covers (start + offset front)) → ¬ StartsLexeme back

theorem offset_pos {cs : List Char} (h : cs ≠ []) : 0 < offset cs := by
  cases cs with
  | nil => exact absurd rfl h
  | cons c cs =>
    have hsize := c.utf8Size_pos
    rw [offset_cons]
    omega

/-- Of two ways to divide a text, the longer front starts with the other. -/
theorem exists_behind {text rest front back : List Char} (hsplit : text ++ rest = front ++ back)
    (h : offset text ≤ offset front) :
    ∃ behind, front = text ++ behind ∧ rest = behind ++ back := by
  rcases List.append_eq_append_iff.mp hsplit with hbehind | ⟨inside, htext, hback⟩
  · exact hbehind
  · cases inside with
    | nil => exact ⟨[], by simpa using htext.symm, by simpa using hback.symm⟩
    | cons c inside =>
      have hpos := offset_pos (List.cons_ne_nil c inside)
      rw [htext, offset_append] at h
      omega

namespace Occurrence

variable {start : Nat} {cs : List Char} {occurrence : Occurrence}

theorem StandsIn.start_le (h : occurrence.StandsIn start cs) : start ≤ occurrence.start := by
  obtain ⟨front, back, -, -, hstart, -⟩ := h
  omega

/-- What stands in a text stands in every text with something before it. -/
theorem StandsIn.append {front : List Char} (h : occurrence.StandsIn (start + offset front) cs) :
    occurrence.StandsIn start (front ++ cs) := by
  obtain ⟨before, back, rfl, hfits, hstart, hstop⟩ := h
  refine ⟨front ++ before, back, (List.append_assoc ..).symm, hfits, ?_, hstop⟩
  rw [hstart, offset_append, Nat.add_assoc]

/-- What stands behind the front of a text stands in the rest. -/
theorem StandsIn.of_append {front : List Char} (h : occurrence.StandsIn start (front ++ cs))
    (hbehind : start + offset front ≤ occurrence.start) :
    occurrence.StandsIn (start + offset front) cs := by
  obtain ⟨before, back, hsplit, hfits, hstart, hstop⟩ := h
  obtain ⟨behind, rfl, hrest⟩ := exists_behind hsplit (by omega)
  refine ⟨behind, back, hrest, hfits, ?_, hstop⟩
  rw [hstart, offset_append, Nat.add_assoc]

/-- What stands at the start of a text is the lexeme that is found there. -/
theorem StandsIn.eq_occurrenceAt {lexeme : Lexeme} (h : occurrence.StandsIn start cs)
    (hstart : occurrence.start = start) (hfound : start? cs = some lexeme) :
    occurrence = occurrenceAt start lexeme := by
  obtain ⟨front, back, rfl, hfits, hoffset, hstop⟩ := h
  have hlexeme : occurrence.lexeme = lexeme := by
    cases front with
    | nil =>
      rw [List.nil_append, start?_eq_some_iff.mpr ⟨back, rfl, hfits⟩] at hfound
      exact Option.some.inj hfound
    | cons c front =>
      have hpos := offset_pos (List.cons_ne_nil c front)
      omega
  rw [hlexeme, hstart] at hstop
  rw [occurrenceAt, ← hstop, ← hlexeme, ← hstart]

end Occurrence

namespace IsScanFrom

variable {start : Nat} {cs rest : List Char} {c : Char} {lexeme : Lexeme}
  {occurrences : List Occurrence}

theorem nil_iff : IsScanFrom start [] occurrences ↔ occurrences = [] := by
  constructor
  · intro h
    rw [List.eq_nil_iff_forall_not_mem]
    intro occurrence hmem
    obtain ⟨hpos, front, back, hsplit, -, -, hstop⟩ := h.stand occurrence hmem
    have htext : occurrence.lexeme.text.toList = [] := by
      have hnil := List.append_eq_nil_iff.mp hsplit.symm
      exact (List.append_eq_nil_iff.mp hnil.2).1
    rw [← offset_toList, htext, offset_nil] at hstop
    omega
  · rintro rfl
    refine ⟨fun _ hmem => absurd hmem List.not_mem_nil, .nil, ?_⟩
    intro front back hsplit _ hstarts
    obtain ⟨rfl, rfl⟩ := List.append_eq_nil_iff.mp hsplit.symm
    exact start?_ne_none_iff.mpr hstarts rfl

/-- Where a lexeme starts there is an occurrence. -/
theorem exists_covers (h : IsScanFrom start cs occurrences) (front back : List Char)
    (hsplit : cs = front ++ back) (hstarts : StartsLexeme back) :
    ∃ occurrence ∈ occurrences, occurrence.Covers (start + offset front) := by
  refine Classical.byContradiction fun hnone => ?_
  refine h.complete front back hsplit (fun occurrence hmem hcovers => ?_) hstarts
  exact hnone ⟨occurrence, hmem, hcovers⟩

/-- Where no lexeme starts there is the same to be found behind the first character. -/
theorem cons_iff (hnone : start? (c :: cs) = none) :
    IsScanFrom start (c :: cs) occurrences ↔ IsScanFrom (start + c.utf8Size) cs occurrences := by
  have hoffset : offset [c] = c.utf8Size := by rw [offset_cons, offset_nil, Nat.add_zero]
  rw [← hoffset]
  constructor
  · intro h
    refine ⟨fun occurrence hmem => ?_, h.increasing, fun front back hsplit houtside => ?_⟩
    · obtain ⟨hpos, hstands⟩ := h.stand occurrence hmem
      -- the lexeme does not stand at the start of the text
      have hlater : start + offset [c] ≤ occurrence.start := by
        obtain ⟨front, back, hsplit, hfits, hstart, hstop⟩ := hstands
        cases front with
        | nil =>
          rw [start?_eq_some_iff.mpr ⟨back, hsplit, hfits⟩] at hnone
          simp at hnone
        | cons d front =>
          obtain ⟨rfl, -⟩ := List.cons.inj hsplit
          rw [hstart, hoffset, offset_cons]
          omega
      exact ⟨hpos, hstands.of_append hlater⟩
    · refine h.complete (c :: front) back (by rw [hsplit]; rfl) fun occurrence hmem => ?_
      rw [offset_cons, ← hoffset, ← Nat.add_assoc]
      exact houtside occurrence hmem
  · intro h
    refine ⟨fun occurrence hmem => ?_, h.increasing, fun front back hsplit houtside => ?_⟩
    · obtain ⟨hpos, hstands⟩ := h.stand occurrence hmem
      exact ⟨hpos, hstands.append⟩
    · cases front with
      | nil =>
        intro hstarts
        exact start?_ne_none_iff.mpr (hsplit ▸ hstarts) hnone
      | cons d front =>
        obtain ⟨rfl, hrest⟩ := List.cons.inj hsplit
        refine h.complete front back hrest fun occurrence hmem => ?_
        rw [Nat.add_assoc, hoffset, ← offset_cons]
        exact houtside occurrence hmem

/-- Where a lexeme is found it is the first that is to be found. -/
theorem exists_eq_cons (hfound : start? cs = some lexeme) (h : IsScanFrom start cs occurrences) :
    ∃ others, occurrences = occurrenceAt start lexeme :: others := by
  -- what covers the start of the text stands there
  have hstarts := start?_ne_none_iff.mp (hfound ▸ Option.some_ne_none lexeme)
  obtain ⟨first, hmem, hcovers⟩ := h.exists_covers [] cs rfl hstarts
  have hstands := (h.stand first hmem).2
  have hstart : first.start = start := Nat.le_antisymm hcovers.1 hstands.start_le
  obtain rfl := hstands.eq_occurrenceAt hstart hfound
  -- nothing stands before it
  obtain ⟨before, others, rfl⟩ := List.append_of_mem hmem
  obtain ⟨-, -, hbefore⟩ := List.pairwise_append.mp h.increasing
  obtain rfl : before = [] := by
    rw [List.eq_nil_iff_forall_not_mem]
    intro earlier hearlier
    obtain ⟨hnonempty, hstands⟩ := h.stand earlier (List.mem_append_left _ hearlier)
    have hstop := hbefore earlier hearlier _ List.mem_cons_self
    have hle := hstands.start_le
    omega
  exact ⟨others, rfl⟩

/-- Behind the first lexeme there are the others to be found. -/
theorem cons_occurrenceAt_iff {others : List Occurrence}
    (hfound : start? (lexeme.text.toList ++ rest) = some lexeme) :
    IsScanFrom start (lexeme.text.toList ++ rest) (occurrenceAt start lexeme :: others) ↔
      IsScanFrom (start + offset lexeme.text.toList) rest others := by
  have hsize : 0 < offset lexeme.text.toList := offset_pos (text_ne_nil_of_start? hfound)
  have hstart : (occurrenceAt start lexeme).start = start := rfl
  have hstop := stop_occurrenceAt start lexeme
  constructor
  · intro h
    obtain ⟨hbehind, hothers⟩ := List.pairwise_cons.mp h.increasing
    refine ⟨fun other hother => ?_, hothers, fun front back hsplit houtside => ?_⟩
    · obtain ⟨hnonempty, hstands⟩ := h.stand other (List.mem_cons_of_mem _ hother)
      have hlater := hbehind other hother
      rw [hstop] at hlater
      exact ⟨hnonempty, hstands.of_append hlater⟩
    · refine h.complete (lexeme.text.toList ++ front) back (by rw [hsplit, List.append_assoc]) ?_
      intro occurrence hoccurrence
      rw [offset_append, ← Nat.add_assoc]
      rcases List.mem_cons.mp hoccurrence with rfl | hother
      · rintro ⟨-, hlt⟩
        omega
      · exact houtside occurrence hother
  · intro h
    refine ⟨fun occurrence hmem => ?_, ?_, fun front back hsplit houtside => ?_⟩
    · rcases List.mem_cons.mp hmem with rfl | hother
      · obtain ⟨back, hback, hfits⟩ := start?_eq_some_iff.mp hfound
        obtain rfl := List.append_cancel_left hback
        exact ⟨by omega, [], rest, rfl, hfits, hstart, rfl⟩
      · obtain ⟨hnonempty, hstands⟩ := h.stand occurrence hother
        exact ⟨hnonempty, hstands.append⟩
    · refine List.pairwise_cons.mpr ⟨fun other hother => ?_, h.increasing⟩
      rw [hstop]
      exact (h.stand other hother).2.start_le
    · -- an uncovered place lies behind the lexeme
      have houtsideFirst := houtside _ List.mem_cons_self
      have hlater : offset lexeme.text.toList ≤ offset front := by
        rw [Occurrence.Covers] at houtsideFirst
        omega
      obtain ⟨behind, rfl, hrest⟩ := exists_behind hsplit hlater
      refine h.complete behind back hrest fun other hother => ?_
      rw [Nat.add_assoc, ← offset_append]
      exact houtside other (List.mem_cons_of_mem _ hother)

/-- The lexemes among the pieces of a text are what is to be found in it, and nothing else is. -/
theorem iff_eq_occurrencesFrom_pieces :
    IsScanFrom start cs occurrences ↔ occurrences = occurrencesFrom start (pieces cs) := by
  induction cs using pieces_induction generalizing start occurrences with
  | nil => exact nil_iff
  | passed c cs hnone ih =>
    rw [cons_iff hnone, ih, pieces_cons_of_start?_eq_none hnone]
    rfl
  | found lexeme rest hfound ih =>
    have hpieces : occurrencesFrom start (pieces (lexeme.text.toList ++ rest)) =
        occurrenceAt start lexeme ::
          occurrencesFrom (start + offset lexeme.text.toList) (pieces rest) := by
      rw [pieces_append hfound, offset_toList]
      rfl
    rw [hpieces]
    constructor
    · intro h
      obtain ⟨others, rfl⟩ := h.exists_eq_cons hfound
      rw [ih.mp ((cons_occurrenceAt_iff hfound).mp h)]
    · rintro rfl
      exact (cons_occurrenceAt_iff hfound).mpr (ih.mpr rfl)

end IsScanFrom

/-! ## Scans -/

/-- A scan in either mode finds what is to be found. -/
theorem eq_occurrencesFrom_of_scan {mode : Mode} {rule : String} {occurrences : List Occurrence}
    (h : scan mode rule = .ok occurrences) :
    occurrences = occurrencesFrom 0 (pieces rule.toList) := by
  cases mode with
  | strict => exact (occurrencesFrom_pieces_of_scan ((scan_refines rule).eq_ok h)).symm
  | lenient => exact (occurrencesFrom_pieces_of_scan h).symm

/-- Nothing is to be found in blanks. -/
theorem occurrencesFrom_pieces_of_blank {cs : List Char} (h : cs.all Text.isBlank = true)
    (start : Nat) : occurrencesFrom start (pieces cs) = [] := by
  induction cs generalizing start with
  | nil => rfl
  | cons c cs ih =>
    rw [List.all_cons, Bool.and_eq_true] at h
    rw [pieces_cons_of_isBlank h.1]
    exact ih h.2 _

theorem scan_lenient_eq_ite (rule : String) :
    scan .lenient rule =
      if occurrencesFrom 0 (pieces rule.toList) = [] then .error .emptyRule
      else .ok (occurrencesFrom 0 (pieces rule.toList)) := by
  rw [scan_lenient_eq]
  split
  · next hblank => rw [if_pos (occurrencesFrom_pieces_of_blank hblank 0)]
  · rfl

/-- There is nothing to be found iff no lexeme starts anywhere. -/
theorem isScanFrom_nil_iff {cs : List Char} :
    IsScanFrom 0 cs [] ↔ ∀ front back, cs = front ++ back → ¬ StartsLexeme back := by
  constructor
  · intro h front back hsplit
    exact h.complete front back hsplit fun _ hmem => absurd hmem List.not_mem_nil
  · intro h
    exact ⟨fun _ hmem => absurd hmem List.not_mem_nil, .nil, fun front back hsplit _ =>
      h front back hsplit⟩

/-- A scan that succeeds, in either mode, finds lexemes that stand in the rule where they are said
to stand, one behind the other, and outside their places no lexeme starts. A lenient scan succeeds
with any such lexemes, if there are some, and fails iff no lexeme starts anywhere in the rule. -/
theorem scan_is_leftmost (rule : String) :
    (∀ mode occurrences, scan mode rule = .ok occurrences →
      IsScanFrom 0 rule.toList occurrences) ∧
    (∀ occurrences, IsScanFrom 0 rule.toList occurrences → occurrences ≠ [] →
      scan .lenient rule = .ok occurrences) ∧
    (scan .lenient rule = .error .emptyRule ↔
      ∀ front back, rule.toList = front ++ back → ¬ StartsLexeme back) := by
  refine ⟨?_, ?_, ?_⟩
  · intro mode occurrences hscan
    exact IsScanFrom.iff_eq_occurrencesFrom_pieces.mpr (eq_occurrencesFrom_of_scan hscan)
  · intro occurrences hfound hne
    obtain rfl := IsScanFrom.iff_eq_occurrencesFrom_pieces.mp hfound
    rw [scan_lenient_eq_ite, if_neg hne]
  · rw [← isScanFrom_nil_iff, IsScanFrom.iff_eq_occurrencesFrom_pieces, scan_lenient_eq_ite]
    constructor
    · intro hfault
      split at hfault
      · next hnil => exact hnil.symm
      · simp at hfault
    · intro hnil
      rw [if_pos hnil.symm]

end Criteria.Lexeme
