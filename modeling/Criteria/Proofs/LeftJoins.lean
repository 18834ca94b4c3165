import Criteria.Proofs.Combinations

/-!
# Formulas joined from the left

Formulas are combined by joining the first two, then that join and the third, and so on. Every join
puts what has been joined before it one level deeper, so a formula counts with its height and the
number of joins from the one that takes it in to the last: all joins for the first formula, one for
the last. The highest count is the height of the combination (`Formula.height_foldl_join`). The
limit is tested after every join, but as heights only grow from join to join it refuses exactly the
combinations that are higher than it in the end (`Formula.combine_eq_ite_of_two`).
-/

namespace Criteria

namespace Formula

variable {policy : Policy} {connective : Connective}

/-! ## What is joined -/

/-- The height of formulas joined from the left, of which `rest` follow the first one: the highest
count of a formula, which is its height and the number of joins that it is in. The first formula is
in all of them, and the one in a place of `rest` in those from this place on. -/
def joinedHeight (first : Formula) (rest : List Formula) : Nat :=
  (rest.mapIdx fun place formula => formula.height + (rest.length - place)).foldl max
    (first.height + rest.length)

/-- The first join can be made before the counting. -/
theorem joinedHeight_cons (connective : Connective) (first next : Formula)
    (rest : List Formula) :
    joinedHeight first (next :: rest) = joinedHeight (.join connective first next) rest := by
  have hfirst : max (first.height + (rest.length + 1)) (next.height + (rest.length + 1)) =
      (join connective first next).height + rest.length := by
    rw [height]
    omega
  simp only [joinedHeight, List.mapIdx_cons, List.length_cons, List.foldl_cons, Nat.sub_zero,
    Nat.add_sub_add_right, hfirst]

theorem height_foldl_join (connective : Connective) (first : Formula) (rest : List Formula) :
    (rest.foldl (.join connective) first).height = joinedHeight first rest := by
  induction rest generalizing first with
  | nil => rfl
  | cons next rest ih =>
    rw [List.foldl_cons, ih, joinedHeight_cons connective]

/-- The conditions of joined formulas stand in the order of the formulas. -/
theorem conditions_foldl_join (connective : Connective) (first : Formula) (rest : List Formula) :
    (rest.foldl (.join connective) first).conditions = (first :: rest).flatMap conditions := by
  induction rest generalizing first with
  | nil => simp
  | cons next rest ih => simp [ih, conditions]

theorem size_foldl_join (connective : Connective) (first : Formula) (rest : List Formula) :
    (rest.foldl (.join connective) first).size = ((first :: rest).map size).sum := by
  rw [← length_conditions, conditions_foldl_join, List.length_flatMap]
  simp [length_conditions]

/-! ## The limit -/

theorem isTest_foldl_join (left right : Formula) (rest : List Formula) :
    (rest.foldl (join connective) (join connective left right)).isTest = false := by
  induction rest generalizing left right with
  | nil => rfl
  | cons next rest ih => exact ih (join connective left right) next

/-- Two formulas or more are combined by combining the join of the first two with the others, unless
that join is too high. -/
theorem combine_cons_cons (first next : Formula) (rest : List Formula) :
    combine policy connective (first :: next :: rest) =
      if policy.Fits (.join connective first next) then
        combine policy connective (.join connective first next :: rest)
      else .error (.tooDeep policy.maxHeight) := by
  rw [combine, List.foldlM_cons, joinWithin_eq]
  by_cases hfits : policy.Fits (.join connective first next)
  · rw [if_pos (Policy.fits_join_iff.mp hfits), if_pos hfits]
    rfl
  · rw [if_neg (mt Policy.fits_join_iff.mpr hfits), if_neg hfits]
    rfl

/-- Two formulas or more are combined iff the height of the whole is within the limit. -/
theorem combine_eq_ite_of_two (first next : Formula) (rest : List Formula) :
    combine policy connective (first :: next :: rest) =
      if joinedHeight first (next :: rest) ≤ policy.maxHeight then
        .ok ((next :: rest).foldl (.join connective) first)
      else .error (.tooDeep policy.maxHeight) := by
  have hlast : policy.Fits (rest.foldl (.join connective) (.join connective first next)) ↔
      joinedHeight first (next :: rest) ≤ policy.maxHeight := by
    rw [Policy.Fits, isTest_foldl_join, ← height_foldl_join connective]
    simp
  rw [combine_cons_cons]
  by_cases hfits : policy.Fits (.join connective first next)
  · rw [if_pos hfits, combine_eq_ite hfits]
    simp only [hlast, List.foldl_cons]
  · -- a join that is too high stays within all that follow
    rw [if_neg hfits, if_neg fun hheight => hfits (hlast.mpr hheight).of_foldl]

theorem eq_foldl_of_combine {first formula : Formula} {rest : List Formula}
    (h : combine policy connective (first :: rest) = .ok formula) :
    formula = rest.foldl (.join connective) first := by
  cases rest with
  | nil => exact (Except.ok.inj h).symm
  | cons next rest =>
    rw [combine_eq_ite_of_two] at h
    split at h
    · exact (Except.ok.inj h).symm
    · simp at h

end Formula

/-- One formula alone stays what it is, however high. Two or more are joined from the left if the
height of the whole is within the limit, and are refused with the limit otherwise. A combination has
that height, and the conditions of all the formulas in their order. -/
theorem combination_is_left_fold (policy : Policy) (connective : Connective) (first : Formula)
    (rest : List Formula) :
    Formula.combine policy connective [first] = .ok first ∧
    (rest ≠ [] → Formula.combine policy connective (first :: rest) =
      if Formula.joinedHeight first rest ≤ policy.maxHeight then
        .ok (rest.foldl (.join connective) first)
      else .error (.tooDeep policy.maxHeight)) ∧
    (∀ formula, Formula.combine policy connective (first :: rest) = .ok formula →
      formula.height = Formula.joinedHeight first rest ∧
      formula.conditions = (first :: rest).flatMap Formula.conditions ∧
      formula.size = ((first :: rest).map Formula.size).sum) := by
  refine ⟨rfl, ?_, ?_⟩
  · intro hrest
    obtain ⟨next, others, rfl⟩ := List.exists_cons_of_ne_nil hrest
    exact Formula.combine_eq_ite_of_two first next others
  · intro formula h
    obtain rfl := Formula.eq_foldl_of_combine h
    exact ⟨Formula.height_foldl_join connective first rest,
      Formula.conditions_foldl_join connective first rest,
      Formula.size_foldl_join connective first rest⟩

/-- A formula of two levels that comes first of three is two levels deeper in the end and makes four
levels; if it comes last it makes three. A limit of three refuses the one combination only. -/
theorem combination_of_high_formula :
    [Formula.test ⟨"a", .eq, .text "x"⟩, .test ⟨"b", .eq, .text "y"⟩] ≠ [] ∧
    Formula.combine ⟨.lenient, 0, 3⟩ .and
        [.join .or (.test ⟨"c", .eq, .text "z"⟩) (.test ⟨"d", .eq, .text ""⟩),
          .test ⟨"a", .eq, .text "x"⟩, .test ⟨"b", .eq, .text "y"⟩] = .error (.tooDeep 3) ∧
    Formula.combine ⟨.lenient, 0, 3⟩ .and
        [.test ⟨"a", .eq, .text "x"⟩, .test ⟨"b", .eq, .text "y"⟩,
          .join .or (.test ⟨"c", .eq, .text "z"⟩) (.test ⟨"d", .eq, .text ""⟩)] =
      .ok (.join .and (.join .and (.test ⟨"a", .eq, .text "x"⟩) (.test ⟨"b", .eq, .text "y"⟩))
        (.join .or (.test ⟨"c", .eq, .text "z"⟩) (.test ⟨"d", .eq, .text ""⟩))) ∧
    (Formula.join .and (.join .and (.test ⟨"a", .eq, .text "x"⟩) (.test ⟨"b", .eq, .text "y"⟩))
        (.join .or (.test ⟨"c", .eq, .text "z"⟩) (.test ⟨"d", .eq, .text ""⟩))).height =
      Formula.joinedHeight (.test ⟨"a", .eq, .text "x"⟩) [.test ⟨"b", .eq, .text "y"⟩,
        .join .or (.test ⟨"c", .eq, .text "z"⟩) (.test ⟨"d", .eq, .text ""⟩)] := by
  let a := Formula.test ⟨"a", .eq, .text "x"⟩
  let b := Formula.test ⟨"b", .eq, .text "y"⟩
  let high := Formula.join .or (.test ⟨"c", .eq, .text "z"⟩) (.test ⟨"d", .eq, .text ""⟩)
  have hfirst := combination_is_left_fold ⟨.lenient, 0, 3⟩ .and high [a, b]
  have hlast := combination_is_left_fold ⟨.lenient, 0, 3⟩ .and a [b, high]
  have hcombined : Formula.combine ⟨.lenient, 0, 3⟩ .and [a, b, high] =
      .ok (.join .and (.join .and a b) high) :=
    (hlast.2.1 (List.cons_ne_nil _ _)).trans rfl
  exact ⟨List.cons_ne_nil _ _, (hfirst.2.1 (List.cons_ne_nil _ _)).trans rfl, hcombined,
    (hlast.2.2 _ hcombined).1⟩

end Criteria
