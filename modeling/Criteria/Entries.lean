/-!
# Entries in order of their names

Values under names, kept in increasing order of the names, which is the order of their code points:
entries with different names are held alike in whatever order they are given.
-/

namespace Criteria

namespace Entries

variable {α : Type}

/-- The names increase from entry to entry. -/
abbrev Increasing (entries : List (String × α)) : Prop :=
  entries.Pairwise fun first second => first.1 < second.1

/-- Gives a value to a name, in place of the one that it may have. -/
def insert (name : String) (value : α) : List (String × α) → List (String × α)
  | [] => [(name, value)]
  | (other, held) :: rest =>
    if name < other then (name, value) :: (other, held) :: rest
    else if name = other then (name, value) :: rest
    else (other, held) :: insert name value rest

/-- Entries with increasing names: of a name that occurs twice the last value counts. -/
def ofList (entries : List (String × α)) : List (String × α) :=
  entries.foldl (fun held entry => insert entry.1 entry.2 held) []

/-- The value of a name. -/
def get? (entries : List (String × α)) (name : String) : Option α :=
  entries.lookup name

theorem mem_insert {name : String} {value : α} {entries : List (String × α)}
    {entry : String × α} (h : entry ∈ insert name value entries) :
    entry = (name, value) ∨ entry ∈ entries := by
  induction entries with
  | nil => simpa [insert] using h
  | cons head rest ih =>
    simp only [insert] at h
    split at h
    · simpa using h
    · split at h
      · rcases List.mem_cons.1 h with rfl | h
        · exact .inl rfl
        · exact .inr (List.mem_cons_of_mem _ h)
      · rcases List.mem_cons.1 h with rfl | h
        · exact .inr List.mem_cons_self
        · rcases ih h with rfl | h
          · exact .inl rfl
          · exact .inr (List.mem_cons_of_mem _ h)

theorem increasing_insert {name : String} {value : α} {entries : List (String × α)}
    (h : Increasing entries) : Increasing (insert name value entries) := by
  induction entries with
  | nil => simp [insert, Increasing]
  | cons head rest ih =>
    obtain ⟨hhead, hrest⟩ := List.pairwise_cons.1 h
    simp only [insert]
    split
    · next hlt =>
      refine List.pairwise_cons.2 ⟨fun entry hentry => ?_, h⟩
      rcases List.mem_cons.1 hentry with rfl | hentry
      · exact hlt
      · exact String.lt_trans hlt (hhead entry hentry)
    · split
      · next heq => exact List.pairwise_cons.2 ⟨fun entry hentry => heq ▸ hhead entry hentry, hrest⟩
      · next hnlt hne =>
        refine List.pairwise_cons.2 ⟨fun entry hentry => ?_, ih hrest⟩
        rcases mem_insert hentry with rfl | hentry
        · exact String.not_le.1 fun hle =>
            (String.le_antisymm hle (String.not_lt.1 hnlt)) |> hne
        · exact hhead entry hentry

theorem increasing_ofList (entries : List (String × α)) : Increasing (ofList entries) := by
  have grow : ∀ (more held : List (String × α)), Increasing held →
      Increasing (more.foldl (fun held entry => insert entry.1 entry.2 held) held) := by
    intro more
    induction more with
    | nil => exact fun held h => h
    | cons entry more ih => exact fun held h => ih _ (increasing_insert h)
  exact grow entries [] List.Pairwise.nil

end Entries

end Criteria
