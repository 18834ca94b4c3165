import Criteria.Session
import Criteria.Proofs.Outcome

/-!
# Answers do not depend on earlier requests

A session keeps rules that it has evaluated, so what it holds depends on the requests before; what
it answers does not. The invariant behind this is that every edition in the rule book is the formula
that its rule compiles to under the policy of the settings (`Session.Serves`). Each request
preserves it, so it holds after any requests, and where it holds an evaluation gives what a fresh
compilation would.
-/

namespace Criteria

open Outcome

/-! ## Rule books -/

namespace RuleBook

/-- Every edition that the book keeps is what its rule compiles to under the policy of the book. -/
def Faithful (book : RuleBook) : Prop :=
  ∀ rule edition, book.find? rule = some edition →
    Rule.compile book.policy rule = .ok edition.formula

@[simp] theorem policy_add (book : RuleBook) (rule : String) (formula : Formula) :
    (book.add rule formula).policy = book.policy := by
  rw [add]
  split <;> rfl

@[simp] theorem capacity_add (book : RuleBook) (rule : String) (formula : Formula) :
    (book.add rule formula).capacity = book.capacity := by
  rw [add]
  split <;> rfl

/-- A full book does not take in the new edition. -/
theorem entries_add (book : RuleBook) (rule : String) (formula : Formula) :
    (book.add rule formula).entries =
      if book.size < book.capacity then book.entries ++ [(rule, ⟨book.nextNumber, formula⟩)]
      else book.entries := by
  rw [add]
  split <;> rfl

/-- An edition in the book afterwards was there before, or is the one that was added. -/
theorem find?_add {book : RuleBook} {rule other : String} {formula : Formula} {edition : Edition}
    (h : (book.add rule formula).find? other = some edition) :
    book.find? other = some edition ∨ other = rule ∧ edition = ⟨book.nextNumber, formula⟩ := by
  rw [find?, entries_add] at h
  split at h
  · rw [List.lookup_append, Option.or_eq_some_iff] at h
    rcases h with hkept | ⟨-, hadded⟩
    · exact .inl hkept
    · rw [List.lookup_cons] at hadded
      split at hadded
      · next hrule => exact .inr ⟨eq_of_beq hrule, (Option.some.inj hadded).symm⟩
      · simp at hadded
  · exact .inl h

theorem Faithful.add {book : RuleBook} (h : book.Faithful) {rule : String} {formula : Formula}
    (hcompile : Rule.compile book.policy rule = .ok formula) :
    (book.add rule formula).Faithful := by
  intro other edition hfound
  rw [policy_add]
  rcases find?_add hfound with hkept | ⟨rfl, rfl⟩
  · exact h other edition hkept
  · exact hcompile

/-- All that asking for a rule can do: it finds the rule, or compiles it in vain, or compiles it and
adds it. -/
theorem get_cases (book : RuleBook) (rule : String) :
    (∃ edition, book.find? rule = some edition ∧ book.get rule = (.ok edition, book)) ∨
      book.find? rule = none ∧
        ((∃ fault, Rule.compile book.policy rule = .error fault ∧
            book.get rule = (.error fault, book)) ∨
          ∃ formula, Rule.compile book.policy rule = .ok formula ∧
            book.get rule = (.ok ⟨book.nextNumber, formula⟩, book.add rule formula)) := by
  rw [get]
  cases hfound : book.find? rule with
  | some edition => exact .inl ⟨edition, rfl, rfl⟩
  | none =>
    refine .inr ⟨rfl, ?_⟩
    cases hcompile : Rule.compile book.policy rule with
    | error fault => exact .inl ⟨fault, rfl, rfl⟩
    | ok formula => exact .inr ⟨formula, rfl, rfl⟩

theorem check_eq (book : RuleBook) (rule : String) (record : Record) :
    book.check rule record =
      ((book.get rule).1 >>= fun edition => edition.formula.eval record, (book.get rule).2) := rfl

theorem policy_get (book : RuleBook) (rule : String) :
    (book.get rule).2.policy = book.policy := by
  rcases book.get_cases rule with ⟨_, -, hget⟩ | ⟨-, ⟨_, -, hget⟩ | ⟨_, -, hget⟩⟩ <;> simp [hget]

theorem capacity_get (book : RuleBook) (rule : String) :
    (book.get rule).2.capacity = book.capacity := by
  rcases book.get_cases rule with ⟨_, -, hget⟩ | ⟨-, ⟨_, -, hget⟩ | ⟨_, -, hget⟩⟩ <;> simp [hget]

/-- A rule that does not compile leaves the book as it is. -/
theorem get_of_error {book : RuleBook} {rule : String} {fault : Fault}
    (hcompile : Rule.compile book.policy rule = .error fault) : (book.get rule).2 = book := by
  rcases book.get_cases rule with ⟨_, -, hget⟩ | ⟨-, ⟨_, -, hget⟩ | ⟨_, hcompile', -⟩⟩
  · rw [hget]
  · rw [hget]
  · rw [hcompile] at hcompile'
    simp at hcompile'

/-- A rule that compiles is taken in by a book that lacks it and is not full. -/
theorem entries_get_of_ok {book : RuleBook} {rule : String} {formula : Formula}
    (hcompile : Rule.compile book.policy rule = .ok formula) :
    (book.get rule).2.entries =
      if book.find? rule = none ∧ book.size < book.capacity then
        book.entries ++ [(rule, ⟨book.nextNumber, formula⟩)]
      else book.entries := by
  rcases book.get_cases rule with
    ⟨edition, hfound, hget⟩ | ⟨hmissing, ⟨_, hcompile', -⟩ | ⟨formula', hcompile', hget⟩⟩
  · rw [hget, if_neg (by simp [hfound])]
  · rw [hcompile] at hcompile'
    simp at hcompile'
  · obtain rfl : formula' = formula := Except.ok.inj (hcompile'.symm.trans hcompile)
    simp [hget, entries_add, hmissing]

namespace Faithful

variable {book : RuleBook} (h : book.Faithful) (rule : String)
include h

theorem get : (book.get rule).2.Faithful := by
  rcases book.get_cases rule with ⟨_, -, hget⟩ | ⟨-, ⟨_, -, hget⟩ | ⟨_, hcompile, hget⟩⟩
  · rwa [hget]
  · rwa [hget]
  · rw [hget]
    exact h.add hcompile

/-- An edition from a faithful book holds the formula that the rule compiles to. -/
theorem map_formula_get :
    (book.get rule).1.map (·.formula) = Rule.compile book.policy rule := by
  rcases book.get_cases rule with
    ⟨edition, hfound, hget⟩ | ⟨-, ⟨_, hcompile, hget⟩ | ⟨_, hcompile, hget⟩⟩
  · rw [hget, h rule edition hfound]
    rfl
  · rw [hget, hcompile]
    rfl
  · rw [hget, hcompile]
    rfl

/-- An evaluation by a faithful book gives what compiling and evaluating gives. -/
theorem check (record : Record) :
    (book.check rule record).1 =
      Rule.compile book.policy rule >>= fun formula => formula.eval record := by
  rw [← h.map_formula_get rule, check_eq]
  cases (book.get rule).1 <;> rfl

end Faithful

theorem Faithful.clear (book : RuleBook) : book.clear.Faithful := by
  intro rule edition hfound
  simp [find?, RuleBook.clear] at hfound

end RuleBook

/-! ## Sessions -/

namespace Session

/-- The session after some requests. -/
def after (session : Session) (requests : List Request) : Session :=
  requests.foldl (fun session request => (session.answer request).2) session

/-- The session serves the settings: it and its rule book read rules as the settings ask, the book
takes in as many rules as they allow, and it is faithful. -/
structure Serves (session : Session) (settings : Settings) : Prop where
  policy : session.policy = settings.policy
  bookPolicy : session.book.policy = settings.policy
  capacity : session.book.capacity = settings.capacity.toNat
  faithful : session.book.Faithful

theorem serves_ofSettings (settings : Settings) : (ofSettings settings).Serves settings where
  policy := rfl
  bookPolicy := rfl
  capacity := rfl
  faithful := RuleBook.Faithful.clear { policy := settings.policy }

/-- Only an evaluation of a rule and the request to clear change anything. -/
theorem answer_eq_self_or (session : Session) (request : Request) :
    (session.answer request).2 = session ∨ request = .clear ∨
      ∃ rule record, request = .evaluateRule rule record := by
  cases request with
  | compile rule => exact .inl rfl
  | combine rules connective => exact .inl rfl
  | evaluate formula record => exact .inl rfl
  | evaluateRule rule record => exact .inr (.inr ⟨rule, record, rfl⟩)
  | clear => exact .inr (.inl rfl)

namespace Serves

variable {session : Session} {settings : Settings}

/-- No request makes a session serve its settings worse. -/
theorem answer (h : session.Serves settings) (request : Request) :
    (session.answer request).2.Serves settings := by
  cases request with
  | compile rule => exact h
  | combine rules connective => exact h
  | evaluate formula record => exact h
  | evaluateRule rule record =>
    exact {
      policy := h.policy
      bookPolicy := (session.book.policy_get rule).trans h.bookPolicy
      capacity := (session.book.capacity_get rule).trans h.capacity
      faithful := h.faithful.get rule }
  | clear =>
    exact { h with faithful := RuleBook.Faithful.clear session.book }

theorem after (h : session.Serves settings) (requests : List Request) :
    (session.after requests).Serves settings := by
  induction requests generalizing session with
  | nil => exact h
  | cons request requests ih => exact ih (h.answer request)

/-- The verdict on a rule is that of compiling and evaluating it. -/
theorem answer_evaluateRule (h : session.Serves settings) (rule : String) (record : Record) :
    (session.answer (.evaluateRule rule record)).1 =
      .verdict (Rule.compile settings.policy rule >>= fun formula => formula.eval record) := by
  rw [← h.bookPolicy, ← h.faithful.check rule record]
  rfl

/-- Two sessions that serve the same settings answer alike. -/
theorem answer_eq {session' : Session} (h : session.Serves settings)
    (h' : session'.Serves settings) (request : Request) :
    (session.answer request).1 = (session'.answer request).1 := by
  cases request with
  | compile rule =>
    rw [Session.answer, Session.answer, h.policy, h'.policy]
  | combine rules connective =>
    rw [Session.answer, Session.answer, h.policy, h'.policy]
  | evaluate formula record => rfl
  | evaluateRule rule record =>
    rw [h.answer_evaluateRule, h'.answer_evaluateRule]
  | clear => rfl

end Serves

end Session

/-- Whatever has been asked of a session before, it answers every request as a new session with the
same settings does, and the verdict on a rule is that of compiling the rule anew and evaluating its
formula. Only such verdicts and the request to clear change the session. A rule that does not
compile leaves it as it is; one that does is taken in by the rule book if the book lacks it and is
not full, whether or not the evaluation succeeds. -/
theorem answers_independent_of_history (settings : Settings) (history : List Request) :
    let new := Session.ofSettings settings
    let session := new.after history
    (∀ request, (session.answer request).1 = (new.answer request).1) ∧
    (∀ rule record, (session.answer (.evaluateRule rule record)).1 =
      .verdict (Rule.compile settings.policy rule >>= fun formula => formula.eval record)) ∧
    (∀ request, (session.answer request).2 = session ∨ request = .clear ∨
      ∃ rule record, request = .evaluateRule rule record) ∧
    (∀ rule record,
      (∀ fault, Rule.compile settings.policy rule = .error fault →
        (session.answer (.evaluateRule rule record)).2 = session) ∧
      ∀ formula, Rule.compile settings.policy rule = .ok formula →
        (session.answer (.evaluateRule rule record)).2.book.entries =
          if session.book.find? rule = none ∧ session.book.size < settings.capacity.toNat then
            session.book.entries ++ [(rule, ⟨session.book.nextNumber, formula⟩)]
          else session.book.entries) ∧
    (session.answer .clear).2.book.entries = [] := by
  intro new session
  have hnew : new.Serves settings := Session.serves_ofSettings settings
  have hserves : session.Serves settings := hnew.after history
  refine ⟨hserves.answer_eq hnew, hserves.answer_evaluateRule, session.answer_eq_self_or, ?_, rfl⟩
  intro rule record
  constructor
  · intro fault hcompile
    rw [← hserves.bookPolicy] at hcompile
    have hbook := RuleBook.get_of_error hcompile
    show { session with book := (session.book.get rule).2 } = session
    rw [hbook]
  · intro formula hcompile
    rw [← hserves.bookPolicy] at hcompile
    rw [← hserves.capacity]
    exact RuleBook.entries_get_of_ok hcompile

/-- A rule that does not compile is not kept. One that compiles is, though its evaluation fails for
want of a field. -/
theorem rule_kept_though_evaluation_fails :
    let session := (Session.ofSettings { capacity := 1 }).after [.evaluateRule "AND" {}]
    (session.answer (.evaluateRule "AND" {})).2 = session ∧
    (session.answer (.evaluateRule "a = 'x'" {})).1 = .verdict (.error (.missingField "a")) ∧
    (session.answer (.evaluateRule "a = 'x'" {})).2.book.entries =
      [("a = 'x'", ⟨0, .test ⟨"a", .eq, .text "x"⟩⟩)] := by
  intro session
  let settings : Settings := { capacity := 1 }
  have hfault : Rule.compile settings.policy "AND" = .error (.danglingConnective .and) := by rfl
  have hcompile : Rule.compile settings.policy "a = 'x'" = .ok (.test ⟨"a", .eq, .text "x"⟩) :=
    eq_ok_of_toOption (by decide +kernel)
  obtain ⟨-, hverdict, -, hkept, -⟩ :=
    answers_independent_of_history settings [.evaluateRule "AND" {}]
  have hentries : (session.answer (.evaluateRule "a = 'x'" {})).2.book.entries =
      if session.book.find? "a = 'x'" = none ∧ session.book.size < settings.capacity.toNat then
        session.book.entries ++
          [("a = 'x'", ⟨session.book.nextNumber, .test ⟨"a", .eq, .text "x"⟩⟩)]
      else session.book.entries := (hkept "a = 'x'" {}).2 _ hcompile
  -- the first request has left the new session as it was
  have hsession : session = Session.ofSettings settings :=
    ((answers_independent_of_history settings []).2.2.2.1 "AND" {}).1 _ hfault
  refine ⟨(hkept "AND" {}).1 _ hfault, ?_, ?_⟩
  · rw [hverdict "a = 'x'" {}, hcompile]
    rfl
  · rw [hentries, hsession]
    rfl

end Criteria
