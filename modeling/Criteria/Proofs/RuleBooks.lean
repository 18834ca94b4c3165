import Mathlib.Data.List.DropRight
import Criteria.Proofs.Sessions

/-!
# What a rule book keeps

A rule book is asked for rules, alone or to judge a record by them, and is cleared. Whatever the
order of these accesses, it keeps the first distinct rules among those asked for since it was last
cleared, as far as they compile and as many as it has place for (`RuleBook.keeps_after`). What it
keeps stays as it is until the next clearing, and an edition that it does not keep, or that was
given out before the book was cleared, is never given out again: its number has been used
(`RuleBook.Forgets`).
-/

namespace Criteria

open Outcome

namespace RuleBook

/-! ## Accesses -/

/-- What can be asked of a rule book. -/
inductive Access where
  | get (rule : String)
  | check (rule : String) (record : Record)
  | clear

/-- The rule that is asked for. -/
def Access.rule? : Access → Option String
  | get rule | check rule _ => some rule
  | clear => none

/-- The book after an access. -/
def next (book : RuleBook) : Access → RuleBook
  | .get rule => (book.get rule).2
  | .check rule record => (book.check rule record).2
  | .clear => book.clear

/-- The book after some accesses. -/
def after (book : RuleBook) (accesses : List Access) : RuleBook :=
  accesses.foldl next book

theorem Access.eq_clear_of_rule?_eq_none {access : Access} (h : access.rule? = none) :
    access = .clear := by
  cases access with
  | get rule => simp [rule?] at h
  | check rule record => simp [rule?] at h
  | clear => rfl

/-- Asking for a rule changes the book alike, whether or not a record is judged. -/
theorem next_of_rule?_eq_some {access : Access} {rule : String} (h : access.rule? = some rule)
    (book : RuleBook) : book.next access = (book.get rule).2 := by
  cases access with
  | get other =>
    obtain rfl := Option.some.inj h
    rfl
  | check other record =>
    obtain rfl := Option.some.inj h
    rfl
  | clear => simp [Access.rule?] at h

/-- When a rule is asked for, the book stays as it is or gets a new edition. -/
theorem get_induction {motive : RuleBook → Prop} {book : RuleBook} (h : motive book)
    (hadd : ∀ rule formula, motive (book.add rule formula)) (rule : String) :
    motive (book.get rule).2 := by
  rcases book.get_cases rule with ⟨_, -, hget⟩ | ⟨-, ⟨_, -, hget⟩ | ⟨formula, -, hget⟩⟩
  · rwa [hget]
  · rwa [hget]
  · rw [hget]
    exact hadd rule formula

/-- What holds of a book, and goes on to hold when it gets a new edition or is cleared, holds after
all accesses. -/
theorem after_induction {motive : RuleBook → Prop}
    (hadd : ∀ book rule formula, motive book → motive (book.add rule formula))
    (hclear : ∀ book, motive book → motive book.clear) {book : RuleBook} (h : motive book)
    (accesses : List Access) : motive (book.after accesses) := by
  induction accesses generalizing book with
  | nil => exact h
  | cons access accesses ih =>
    refine ih ?_
    cases hrule : access.rule? with
    | some rule =>
      rw [next_of_rule?_eq_some hrule]
      exact get_induction h (fun other formula => hadd book other formula h) rule
    | none =>
      rw [Access.eq_clear_of_rule?_eq_none hrule]
      exact hclear book h

/-! ## The rules that are kept -/

/-- The rules that the book keeps, the first one first. -/
def rules (book : RuleBook) : List String :=
  book.entries.map (·.1)

theorem find?_eq_none_iff {book : RuleBook} {rule : String} :
    book.find? rule = none ↔ rule ∉ book.rules := by
  simp only [find?, List.lookup_eq_none_iff, bne_iff_ne, rules, List.mem_map, not_exists, not_and]
  exact forall₂_congr fun _ _ => ne_comm

theorem length_rules (book : RuleBook) : book.rules.length = book.size :=
  List.length_map _

/-- The rules asked for since the book was last cleared, in order. -/
def asked (accesses : List Access) : List String :=
  (accesses.rtakeWhile (·.rule?.isSome)).filterMap Access.rule?

/-- The distinct rules that compile among those asked for since the book was last cleared, in the
order in which they were first asked for. -/
def wanted (policy : Policy) (accesses : List Access) : List String :=
  ((asked accesses).filter fun rule => (Rule.compile policy rule).isOk).eraseDups

theorem wanted_concat_clear (policy : Policy) (accesses : List Access) :
    wanted policy (accesses ++ [.clear]) = [] := by
  simp [wanted, asked, Access.rule?]

/-- A rule is wanted from now on if it compiles and was not wanted before. -/
theorem wanted_concat {access : Access} {rule : String} (h : access.rule? = some rule)
    (policy : Policy) (accesses : List Access) :
    wanted policy (accesses ++ [access]) =
      if (Rule.compile policy rule).isOk ∧ rule ∉ wanted policy accesses then
        wanted policy accesses ++ [rule]
      else wanted policy accesses := by
  have hasked : asked (accesses ++ [access]) = asked accesses ++ [rule] := by
    simp [asked, h]
  rw [wanted, hasked, List.filter_append, List.eraseDups_append, ← wanted]
  cases hcompiles : (Rule.compile policy rule).isOk with
  | false => simp [hcompiles]
  | true =>
    by_cases hmem : rule ∈ asked accesses <;>
      simp [hcompiles, hmem, wanted, List.removeAll, List.eraseDups_cons]

/-- The book reads rules under the policy, and keeps as many of these rules as it has place for. -/
structure Keeps (book : RuleBook) (policy : Policy) (capacity : Nat) (wanted : List String) :
    Prop where
  policy_eq : book.policy = policy
  capacity_eq : book.capacity = capacity
  rules_eq : book.rules = wanted.take capacity

namespace Keeps

variable {book : RuleBook} {policy : Policy} {capacity : Nat} {wanted : List String}

theorem size_eq (h : book.Keeps policy capacity wanted) :
    book.size = min capacity wanted.length := by
  rw [← length_rules, h.rules_eq, List.length_take]

/-- The rule that is asked for becomes the last one wanted, unless it does not compile or was
wanted before. -/
theorem get (h : book.Keeps policy capacity wanted) (rule : String) :
    (book.get rule).2.Keeps policy capacity
      (if (Rule.compile policy rule).isOk ∧ rule ∉ wanted then wanted ++ [rule] else wanted) := by
  refine ⟨(book.policy_get rule).trans h.policy_eq, (book.capacity_get rule).trans h.capacity_eq, ?_⟩
  rcases book.get_cases rule with
    ⟨edition, hfound, hget⟩ | ⟨hmissing, ⟨fault, hcompile, hget⟩ | ⟨formula, hcompile, hget⟩⟩
  · -- a rule that is kept was wanted
    have hkept : rule ∈ wanted := by
      refine List.mem_of_mem_take (i := capacity) ?_
      rw [← h.rules_eq]
      by_contra hnot
      rw [find?_eq_none_iff.mpr hnot] at hfound
      simp at hfound
    rw [hget, if_neg (by simp [hkept]), h.rules_eq]
  · rw [h.policy_eq] at hcompile
    rw [hget, if_neg (by simp [hcompile, Except.isOk, Except.toBool]), h.rules_eq]
  · rw [h.policy_eq] at hcompile
    have hok : (Rule.compile policy rule).isOk = true := by
      rw [hcompile]
      rfl
    have hrules : (book.get rule).2.rules =
        if book.size < book.capacity then book.rules ++ [rule] else book.rules := by
      rw [hget, RuleBook.rules, entries_add]
      split <;> simp [RuleBook.rules]
    rw [hrules, h.size_eq, h.capacity_eq, h.rules_eq]
    by_cases hplace : wanted.length < capacity
    · -- all that is wanted is kept, so the rule is a new one
      have hall : wanted.take capacity = wanted := List.take_of_length_le (Nat.le_of_lt hplace)
      have hnew : rule ∉ wanted := by
        rw [← hall, ← h.rules_eq]
        exact find?_eq_none_iff.mp hmissing
      rw [if_pos (by omega), if_pos ⟨hok, hnew⟩, hall,
        List.take_of_length_le (by simpa using Nat.succ_le_of_lt hplace)]
    · have hfull : capacity ≤ wanted.length := Nat.le_of_not_lt hplace
      rw [if_neg (by omega)]
      split
      · rw [List.take_append_of_le_length hfull]
      · rfl

theorem clear (h : book.Keeps policy capacity wanted) : book.clear.Keeps policy capacity [] where
  policy_eq := h.policy_eq
  capacity_eq := h.capacity_eq
  rules_eq := List.take_nil.symm

end Keeps

/-- After any accesses a new book keeps as many of the wanted rules as it has place for. -/
theorem keeps_after (policy : Policy) (capacity : Nat) (accesses : List Access) :
    (after { policy, capacity } accesses).Keeps policy capacity (wanted policy accesses) := by
  induction accesses using List.reverseRecOn with
  | nil => exact ⟨rfl, rfl, List.take_nil.symm⟩
  | append_singleton accesses access ih =>
    have hlast : after { policy, capacity } (accesses ++ [access]) =
        (after { policy, capacity } accesses).next access := List.foldl_concat ..
    rw [hlast]
    cases hrule : access.rule? with
    | some rule =>
      rw [next_of_rule?_eq_some hrule, wanted_concat hrule]
      exact ih.get rule
    | none =>
      rw [Access.eq_clear_of_rule?_eq_none hrule, wanted_concat_clear]
      exact ih.clear

/-! ## What is kept stays -/

theorem find?_add_of_some {book : RuleBook} {rule other : String} {formula : Formula}
    {edition : Edition} (h : book.find? other = some edition) :
    (book.add rule formula).find? other = some edition := by
  rw [find?] at h
  rw [find?, entries_add]
  split
  · rw [List.lookup_append, h]
    rfl
  · exact h

/-- An edition that is kept is kept until the book is cleared. -/
theorem find?_after_of_some {book : RuleBook} {rule : String} {edition : Edition}
    (h : book.find? rule = some edition) {accesses : List Access} (hclear : .clear ∉ accesses) :
    (book.after accesses).find? rule = some edition := by
  induction accesses generalizing book with
  | nil => exact h
  | cons access accesses ih =>
    rw [List.mem_cons, not_or] at hclear
    refine ih ?_ hclear.2
    cases hrule : access.rule? with
    | some other =>
      rw [next_of_rule?_eq_some hrule]
      exact get_induction (motive := fun later => later.find? rule = some edition) h
        (fun _ _ => find?_add_of_some h) other
    | none => exact absurd (Access.eq_clear_of_rule?_eq_none hrule).symm hclear.1

/-! ## Numbers of editions -/

@[simp] theorem nextNumber_add (book : RuleBook) (rule : String) (formula : Formula) :
    (book.add rule formula).nextNumber = book.nextNumber + 1 := by
  rw [add]
  split <;> rfl

/-- The editions that the book keeps have been numbered before the next one. -/
def Numbered (book : RuleBook) : Prop :=
  ∀ rule edition, book.find? rule = some edition → edition.number < book.nextNumber

theorem Numbered.add {book : RuleBook} (h : book.Numbered) (rule : String) (formula : Formula) :
    (book.add rule formula).Numbered := by
  intro other edition hfound
  rw [nextNumber_add]
  rcases find?_add hfound with hkept | ⟨-, rfl⟩
  · exact Nat.lt_succ_of_lt (h other edition hkept)
  · exact Nat.lt_succ_self _

theorem numbered_clear (book : RuleBook) : book.clear.Numbered := by
  intro rule edition hfound
  simp [find?, clear] at hfound

theorem Numbered.after {book : RuleBook} (h : book.Numbered) (accesses : List Access) :
    (book.after accesses).Numbered :=
  after_induction (fun _ rule formula hbook => hbook.add rule formula)
    (fun book _ => numbered_clear book) h accesses

/-- The edition with this number is not kept, and the number has been used. -/
structure Forgets (book : RuleBook) (number : Nat) : Prop where
  used : number < book.nextNumber
  not_kept : ∀ rule edition, book.find? rule = some edition → edition.number ≠ number

namespace Forgets

variable {book : RuleBook} {number : Nat}

/-- An edition that is forgotten is not given out. -/
theorem number_ne (h : book.Forgets number) {rule : String} {edition : Edition}
    (hgiven : (book.get rule).1 = .ok edition) : edition.number ≠ number := by
  rcases book.get_cases rule with ⟨kept, hfound, hget⟩ | ⟨-, ⟨_, -, hget⟩ | ⟨formula, -, hget⟩⟩
  · rw [hget] at hgiven
    obtain rfl := Except.ok.inj hgiven
    exact h.not_kept rule kept hfound
  · simp [hget] at hgiven
  · rw [hget] at hgiven
    obtain rfl := Except.ok.inj hgiven
    exact Nat.ne_of_gt h.used

theorem add (h : book.Forgets number) (rule : String) (formula : Formula) :
    (book.add rule formula).Forgets number := by
  refine ⟨by simpa using Nat.lt_succ_of_lt h.used, fun other edition hfound => ?_⟩
  rcases find?_add hfound with hkept | ⟨-, rfl⟩
  · exact h.not_kept other edition hkept
  · exact Nat.ne_of_gt h.used

theorem clear (h : number < book.nextNumber) : book.clear.Forgets number where
  used := h
  not_kept := by
    intro rule edition hfound
    simp [find?, RuleBook.clear] at hfound

theorem after (h : book.Forgets number) (accesses : List Access) :
    (book.after accesses).Forgets number :=
  after_induction (motive := fun later => later.Forgets number)
    (fun _ rule formula hlater => hlater.add rule formula) (fun _ hlater => clear hlater.used) h
    accesses

end Forgets

/-- Numbers are not given back. -/
theorem nextNumber_le_after (book : RuleBook) (accesses : List Access) :
    book.nextNumber ≤ (book.after accesses).nextNumber :=
  after_induction (motive := fun later => book.nextNumber ≤ later.nextNumber)
    (fun _ _ _ h => Nat.le_trans h (by simp)) (fun _ h => h) (Nat.le_refl _) accesses

/-- An edition that is given out has been numbered, and the book keeps it or does not keep its
rule. -/
theorem Numbered.given {book : RuleBook} (h : book.Numbered) {rule : String} {edition : Edition}
    (hgiven : (book.get rule).1 = .ok edition) :
    edition.number < (book.get rule).2.nextNumber ∧
      ((book.get rule).2.find? rule = some edition ∨
        (book.get rule).2.find? rule = none ∧ (book.get rule).2.Forgets edition.number) := by
  rcases book.get_cases rule with
    ⟨kept, hfound, hget⟩ | ⟨hmissing, ⟨_, -, hget⟩ | ⟨formula, -, hget⟩⟩
  · rw [hget] at hgiven ⊢
    obtain rfl := Except.ok.inj hgiven
    exact ⟨h rule kept hfound, .inl hfound⟩
  · simp [hget] at hgiven
  · rw [hget] at hgiven ⊢
    obtain rfl := Except.ok.inj hgiven
    have hused : book.nextNumber < (book.add rule formula).nextNumber := by simp
    refine ⟨hused, ?_⟩
    cases hfound : (book.add rule formula).find? rule with
    | some found =>
      rcases find?_add hfound with hkept | ⟨-, rfl⟩
      · rw [hmissing] at hkept
        simp at hkept
      · exact .inl rfl
    | none =>
      refine .inr ⟨rfl, hused, fun other edition hother => ?_⟩
      rcases find?_add hother with hkept | ⟨rfl, -⟩
      · exact Nat.ne_of_lt (h other edition hkept)
      · rw [hfound] at hother
        simp at hother

/-- A rule is given out twice in the same edition iff it was kept at first and the book was not
cleared in between. -/
theorem Numbered.number_eq_iff {book : RuleBook} (h : book.Numbered) {rule : String}
    {between : List Access} {first second : Edition} (hfirst : (book.get rule).1 = .ok first)
    (hsecond : (((book.get rule).2.after between).get rule).1 = .ok second) :
    first.number = second.number ↔ .clear ∉ between ∧ rule ∈ (book.get rule).2.rules := by
  obtain ⟨hused, hkept | ⟨hmissing, hforgets⟩⟩ := h.given hfirst
  · have hmem : rule ∈ (book.get rule).2.rules := by
      by_contra hnot
      rw [find?_eq_none_iff.mpr hnot] at hkept
      simp at hkept
    by_cases hclear : .clear ∈ between
    · -- clearing forgets the first edition
      obtain ⟨before, behind, rfl⟩ := List.append_of_mem hclear
      have hlater : (((book.get rule).2.after before).clear.after behind).Forgets first.number :=
        (Forgets.clear (Nat.lt_of_lt_of_le hused (nextNumber_le_after _ before))).after behind
      rw [RuleBook.after, List.foldl_append, List.foldl_cons] at hsecond
      exact iff_of_false (hlater.number_ne hsecond).symm fun hboth => hboth.1 hclear
    · have hstays := find?_after_of_some hkept hclear
      rw [RuleBook.get, hstays] at hsecond
      obtain rfl := Except.ok.inj hsecond
      exact iff_of_true rfl ⟨hclear, hmem⟩
  · exact iff_of_false ((hforgets.after between).number_ne hsecond).symm
      fun hboth => find?_eq_none_iff.mp hmissing hboth.2

end RuleBook

/-- After any accesses a new rule book keeps the first distinct rules that compile among those asked
for since it was last cleared, as many as it has place for and in this order; its size is their
number. An edition that it keeps stays until the book is cleared. A rule is given out twice in the
same edition iff the book was not cleared in between and kept the rule the first time. -/
theorem book_keeps_first_rules (policy : Policy) (capacity : Nat)
    (history : List RuleBook.Access) :
    let book := RuleBook.after { policy, capacity } history
    let wanted := RuleBook.wanted policy history
    book.rules = wanted.take capacity ∧
    book.size = min capacity wanted.length ∧
    (book.isEmpty = true ↔ book.size = 0) ∧
    (∀ more, .clear ∉ more → ∀ rule edition, book.find? rule = some edition →
      (book.after more).find? rule = some edition) ∧
    ∀ rule between first second, (book.get rule).1 = .ok first →
      (((book.next (.get rule)).after between).get rule).1 = .ok second →
        (first.number = second.number ↔
          .clear ∉ between ∧ rule ∈ (book.next (.get rule)).rules) := by
  intro book wanted
  have hkeeps : book.Keeps policy capacity wanted := RuleBook.keeps_after policy capacity history
  have hnumbered : book.Numbered :=
    (RuleBook.numbered_clear { policy, capacity }).after history
  refine ⟨hkeeps.rules_eq, hkeeps.size_eq, ?_, ?_, ?_⟩
  · rw [RuleBook.isEmpty, RuleBook.size, List.isEmpty_iff, List.length_eq_zero_iff]
  · intro more hclear rule edition hkept
    exact RuleBook.find?_after_of_some hkept hclear
  · intro rule between first second hfirst hsecond
    exact hnumbered.number_eq_iff hfirst hsecond

/-- A book with place for one rule keeps the first, although it is asked for others, and gives out
a new edition of another rule every time. -/
theorem full_book_gives_new_editions :
    let kept : Edition := ⟨0, .test ⟨"a", .eq, .text "x"⟩⟩
    let other (number : Nat) : Edition := ⟨number, .test ⟨"b", .eq, .text "y"⟩⟩
    let book := RuleBook.after { capacity := 1 } [.get "AND", .check "a = 'x'" {}]
    book.rules = ["a = 'x'"] ∧
      (book.find? "a = 'x'" = some kept ∧
        (book.after [.get "b = 'y'"]).find? "a = 'x'" = some kept) ∧
      (book.get "b = 'y'").1 = .ok (other 1) ∧
        (((book.next (.get "b = 'y'")).after [.get "a = 'x'"]).get "b = 'y'").1 = .ok (other 2) ∧
        "b = 'y'" ∉ (book.next (.get "b = 'y'")).rules := by
  intro kept other book
  have hfound : book.find? "a = 'x'" = some kept := by decide +kernel
  have hfirst : (book.get "b = 'y'").1 = .ok (other 1) := eq_ok_of_toOption (by decide +kernel)
  have hsecond : (((book.next (.get "b = 'y'")).after [.get "a = 'x'"]).get "b = 'y'").1 =
      .ok (other 2) := eq_ok_of_toOption (by decide +kernel)
  obtain ⟨hrules, -, -, hstays, heditions⟩ :=
    book_keeps_first_rules {} 1 [.get "AND", .check "a = 'x'" {}]
  have hwanted : (RuleBook.wanted {} [.get "AND", .check "a = 'x'" {}]).take 1 = ["a = 'x'"] := by
    decide +kernel
  refine ⟨hrules.trans hwanted, ⟨hfound, ?_⟩, hfirst, hsecond, fun hmem => ?_⟩
  · exact hstays [.get "b = 'y'"] (by simp) "a = 'x'" kept hfound
  · have hsame : (other 1).number = (other 2).number :=
      (heditions _ [.get "a = 'x'"] _ _ hfirst hsecond).mpr ⟨by simp, hmem⟩
    exact absurd hsame (by decide)

end Criteria
