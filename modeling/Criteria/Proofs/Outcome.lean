import Criteria.Fault

/-!
# Outcomes in sequence

Reading a rule is a sequence of steps each of which may fail. A sequence succeeds iff its steps
do, and it fails with the first fault; the lemmas here take a sequence apart into its steps.

Two readings are compared step by step too: the one `Refines` the other if it gives the same, or
refuses with a fault of some kind. A reading `FailsOnly` with faults of a kind if it never ends with
another.
-/

namespace Criteria.Outcome

variable {ε α β : Type}

@[simp] theorem ok_bind (value : α) (next : α → Except ε β) :
    (Except.ok value >>= next) = next value := rfl

@[simp] theorem error_bind (fault : ε) (next : α → Except ε β) :
    (Except.error fault >>= next) = Except.error fault := rfl

@[simp] theorem map_ok (value : α) (f : α → β) :
    (Except.ok value : Except ε α).map f = .ok (f value) := rfl

@[simp] theorem map_error (fault : ε) (f : α → β) :
    (Except.error fault : Except ε α).map f = .error fault := rfl

theorem bind_eq_ok_iff {outcome : Except ε α} {next : α → Except ε β} {result : β} :
    (outcome >>= next) = .ok result ↔ ∃ value, outcome = .ok value ∧ next value = .ok result := by
  cases outcome <;> simp

theorem bind_eq_error_iff {outcome : Except ε α} {next : α → Except ε β} {fault : ε} :
    (outcome >>= next) = .error fault ↔
      outcome = .error fault ∨ ∃ value, outcome = .ok value ∧ next value = .error fault := by
  cases outcome <;> simp

/-- A fault of a sequence stays if the first step stays and the second fails alike. -/
theorem bind_eq_error_of_imp {outcome : Except ε α} {next next' : α → Except ε β} {fault : ε}
    (h : (outcome >>= next) = .error fault)
    (hnext : ∀ value, next value = .error fault → next' value = .error fault) :
    (outcome >>= next') = .error fault := by
  rcases bind_eq_error_iff.mp h with hfirst | ⟨value, hfirst, hsecond⟩
  · exact bind_eq_error_iff.mpr (.inl hfirst)
  · exact bind_eq_error_iff.mpr (.inr ⟨value, hfirst, hnext value hsecond⟩)

theorem map_eq_ok_iff {outcome : Except ε α} {f : α → β} {result : β} :
    outcome.map f = .ok result ↔ ∃ value, outcome = .ok value ∧ f value = result := by
  cases outcome <;> simp

theorem map_eq_error_iff {outcome : Except ε α} {f : α → β} {fault : ε} :
    outcome.map f = .error fault ↔ outcome = .error fault := by
  cases outcome <;> simp

theorem bind_of_map (outcome : Except ε α) {γ : Type} (f : α → γ) (next : γ → Except ε β) :
    (outcome.map f >>= next) = outcome >>= fun value => next (f value) := by
  cases outcome <;> rfl

theorem map_of_bind (outcome : Except ε α) {γ : Type} (next : α → Except ε γ) (f : γ → β) :
    (outcome >>= next).map f = outcome >>= fun value => (next value).map f := by
  cases outcome <;> rfl

theorem eq_ok_of_toOption {outcome : Except ε α} {value : α}
    (h : outcome.toOption = some value) : outcome = .ok value := by
  cases outcome with
  | error fault => simp [Except.toOption] at h
  | ok found =>
    obtain rfl := Option.some.inj h
    rfl

/-- What a list of steps gives comes from the steps. -/
theorem exists_of_mapM_eq_ok {f : α → Except ε β} {values : List α} {results : List β}
    (h : values.mapM f = .ok results) {result : β} (hmem : result ∈ results) :
    ∃ value ∈ values, f value = .ok result := by
  induction values generalizing results with
  | nil =>
    obtain rfl := Except.ok.inj h
    simp at hmem
  | cons value values ih =>
    rw [List.mapM_cons] at h
    obtain ⟨first, hfirst, h⟩ := bind_eq_ok_iff.mp h
    obtain ⟨rest, hrest, h⟩ := bind_eq_ok_iff.mp h
    obtain rfl := Except.ok.inj h
    rcases List.mem_cons.mp hmem with rfl | hmem
    · exact ⟨value, List.mem_cons_self, hfirst⟩
    · obtain ⟨value', hvalue, hresult⟩ := ih hrest hmem
      exact ⟨value', List.mem_cons_of_mem _ hvalue, hresult⟩

/-- What the steps of a list give is in what the list gives. -/
theorem exists_mem_of_mapM_eq_ok {f : α → Except ε β} {values : List α} {results : List β}
    (h : values.mapM f = .ok results) {value : α} (hmem : value ∈ values) :
    ∃ result ∈ results, f value = .ok result := by
  induction values generalizing results with
  | nil => simp at hmem
  | cons first values ih =>
    rw [List.mapM_cons] at h
    obtain ⟨result, hfirst, h⟩ := bind_eq_ok_iff.mp h
    obtain ⟨rest, hrest, h⟩ := bind_eq_ok_iff.mp h
    obtain rfl := Except.ok.inj h
    rcases List.mem_cons.mp hmem with rfl | hmem
    · exact ⟨result, List.mem_cons_self, hfirst⟩
    · obtain ⟨result', hresult, hvalue⟩ := ih hrest hmem
      exact ⟨result', List.mem_cons_of_mem _ hresult, hvalue⟩

/-- A list of steps gives what the steps give, or stops with the fault of the first that fails. -/
theorem mapM_cases (f : α → Except ε β) (values : List α) :
    (∃ results, values.mapM f = .ok results) ∨
      ∃ before value after fault, values = before ++ value :: after ∧
        (∀ earlier ∈ before, ∃ result, f earlier = .ok result) ∧ f value = .error fault ∧
        values.mapM f = .error fault := by
  induction values with
  | nil => exact .inl ⟨[], rfl⟩
  | cons value values ih =>
    rw [List.mapM_cons]
    cases hvalue : f value with
    | error fault => exact .inr ⟨[], value, values, fault, rfl, List.forall_mem_nil _, hvalue, rfl⟩
    | ok first =>
      rcases ih with ⟨rest, hrest⟩ | ⟨before, other, after, fault, hsplit, hbefore, hother, hfault⟩
      · rw [hrest]
        exact .inl ⟨first :: rest, rfl⟩
      · rw [hfault]
        exact .inr ⟨value :: before, other, after, fault, congrArg (value :: ·) hsplit,
          List.forall_mem_cons.mpr ⟨⟨first, hvalue⟩, hbefore⟩, hother, rfl⟩

/-! ## Outcomes but for faults of a kind -/

variable {refused : ε → Prop}

/-- The one outcome is a fault of the kind, or the other outcome. -/
def Refines (refused : ε → Prop) (outcome outcome' : Except ε α) : Prop :=
  (∃ fault, refused fault ∧ outcome = .error fault) ∨ outcome = outcome'

theorem Refines.refl (outcome : Except ε α) : Refines refused outcome outcome := .inr rfl

theorem Refines.of_refused {fault : ε} (h : refused fault) (outcome : Except ε α) :
    Refines refused (.error fault) outcome := .inl ⟨fault, h, rfl⟩

theorem Refines.bind {outcome outcome' : Except ε α} (h : Refines refused outcome outcome')
    {next next' : α → Except ε β} (hnext : ∀ value, Refines refused (next value) (next' value)) :
    Refines refused (outcome >>= next) (outcome' >>= next') := by
  rcases h with ⟨fault, hrefused, rfl⟩ | rfl
  · exact .of_refused hrefused _
  · cases outcome with
    | error fault => exact .refl _
    | ok value => exact hnext value

theorem Refines.map {outcome outcome' : Except ε α} (h : Refines refused outcome outcome')
    (f : α → β) : Refines refused (outcome.map f) (outcome'.map f) := by
  rcases h with ⟨fault, hrefused, rfl⟩ | rfl
  · exact .of_refused hrefused _
  · exact .refl _

/-- A value of a refining outcome is the value of the other. -/
theorem Refines.eq_ok {outcome outcome' : Except ε α} (h : Refines refused outcome outcome')
    {value : α} (hvalue : outcome = .ok value) : outcome' = .ok value := by
  rcases h with ⟨fault, _, rfl⟩ | rfl
  · exact absurd hvalue (by simp)
  · exact hvalue

/-- If the one outcome is no fault of the kind it is the other outcome. -/
theorem Refines.eq_of_not {outcome outcome' : Except ε α} (h : Refines refused outcome outcome')
    (hnot : ∀ fault, refused fault → outcome ≠ .error fault) : outcome = outcome' := by
  rcases h with ⟨fault, hrefused, hfault⟩ | hequal
  · exact absurd hfault (hnot fault hrefused)
  · exact hequal

theorem Refines.mapM {f f' : α → Except ε β} (h : ∀ value, Refines refused (f value) (f' value))
    (values : List α) : Refines refused (values.mapM f) (values.mapM f') := by
  induction values with
  | nil => exact .refl _
  | cons value values ih =>
    rw [List.mapM_cons, List.mapM_cons]
    exact (h value).bind fun first => ih.bind fun rest => .refl (.ok (first :: rest))

theorem Refines.foldlM {f f' : β → α → Except ε β}
    (h : ∀ acc value, Refines refused (f acc value) (f' acc value)) (values : List α) :
    ∀ acc, Refines refused (values.foldlM f acc) (values.foldlM f' acc) := by
  induction values with
  | nil =>
    intro acc
    exact .refl _
  | cons value values ih =>
    intro acc
    rw [List.foldlM_cons, List.foldlM_cons]
    exact (h acc value).bind fun next => ih next

/-! ## Outcomes with no fault but those of a kind -/

variable {allowed : ε → Prop}

/-- The outcome is no fault but one of the kind. -/
def FailsOnly (allowed : ε → Prop) (outcome : Except ε α) : Prop :=
  ∀ fault, outcome = .error fault → allowed fault

theorem failsOnly_ok (value : α) : FailsOnly allowed (.ok value : Except ε α) := by
  intro fault h
  simp at h

theorem failsOnly_error {fault : ε} (h : allowed fault) :
    FailsOnly allowed (.error fault : Except ε α) := by
  intro fault' hfault
  rwa [← Except.error.inj hfault]

theorem FailsOnly.bind {outcome : Except ε α} (h : FailsOnly allowed outcome)
    {next : α → Except ε β}
    (hnext : ∀ value, outcome = .ok value → FailsOnly allowed (next value)) :
    FailsOnly allowed (outcome >>= next) := by
  intro fault hfault
  rcases bind_eq_error_iff.mp hfault with herror | ⟨value, hvalue, herror⟩
  · exact h fault herror
  · exact hnext value hvalue fault herror

theorem FailsOnly.map {outcome : Except ε α} (h : FailsOnly allowed outcome) (f : α → β) :
    FailsOnly allowed (outcome.map f) := by
  intro fault hfault
  exact h fault (map_eq_error_iff.mp hfault)

theorem FailsOnly.mono {allowed' : ε → Prop} {outcome : Except ε α}
    (h : FailsOnly allowed outcome) (hsub : ∀ fault, allowed fault → allowed' fault) :
    FailsOnly allowed' outcome :=
  fun fault hfault => hsub fault (h fault hfault)

theorem failsOnly_mapM {f : α → Except ε β} (h : ∀ value, FailsOnly allowed (f value))
    (values : List α) : FailsOnly allowed (values.mapM f) := by
  induction values with
  | nil => exact failsOnly_ok []
  | cons value values ih =>
    rw [List.mapM_cons]
    exact (h value).bind fun first _ => ih.bind fun rest _ => failsOnly_ok (first :: rest)

theorem failsOnly_foldlM {f : β → α → Except ε β} (h : ∀ acc value, FailsOnly allowed (f acc value))
    (values : List α) : ∀ acc, FailsOnly allowed (values.foldlM f acc) := by
  induction values with
  | nil =>
    intro acc
    exact failsOnly_ok acc
  | cons value values ih =>
    intro acc
    rw [List.foldlM_cons]
    exact (h acc value).bind fun next _ => ih next

end Criteria.Outcome
