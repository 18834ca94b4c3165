import Criteria.Proofs.Reading

/-!
# The grammar of rules

An expression is an operand, or an expression, a connective and an operand; an operand is a
condition, or an expression between parentheses. `Derives` is that grammar, with the formula that
a derivation builds: every connective joins the whole expression before it to the operand behind
it, both connectives alike, and parentheses leave nothing behind.

A strict reading of lexemes yields the formula of a derivation, and every derivation within the
limits is read. One beyond a limit is refused with a limit that it breaks.
-/

namespace Criteria

open Outcome

/-- What the grammar tells apart. -/
inductive Category where
  | expression
  | operand

/-- The lexemes are of the category, make this formula, and nest parentheses so deep. -/
inductive Derives : Category → List Lexeme → Formula → Nat → Prop
  | condition {text : String} {condition : Condition} :
      Condition.ofText text = .ok condition →
      Derives .operand [.condition text] (.test condition) 0
  | group {lexemes : List Lexeme} {formula : Formula} {nesting : Nat} :
      Derives .expression lexemes formula nesting →
      Derives .operand (.opening :: lexemes ++ [.closing]) formula (nesting + 1)
  | operand {lexemes : List Lexeme} {formula : Formula} {nesting : Nat} :
      Derives .operand lexemes formula nesting → Derives .expression lexemes formula nesting
  | join {before behind : List Lexeme} {left right : Formula} {outer inner : Nat}
      (connective : Connective) :
      Derives .expression before left outer → Derives .operand behind right inner →
      Derives .expression (before ++ .connective connective :: behind)
        (.join connective left right) (max outer inner)

/-! ## The two limits -/

/-- A derivation at some depth keeps to both limits of the policy. -/
structure Policy.Admits (policy : Policy) (depth : Nat) (formula : Formula) (nesting : Nat) :
    Prop where
  nesting_le : depth + nesting ≤ policy.maxNesting
  fits : policy.Fits formula

/-- The limit is one that a derivation at some depth breaks. -/
def Policy.Breaks (policy : Policy) (depth : Nat) (formula : Formula) (nesting limit : Nat) :
    Prop :=
  limit = policy.maxNesting ∧ policy.maxNesting < depth + nesting ∨
    limit = policy.maxHeight ∧ ¬ policy.Fits formula

namespace Policy

variable {policy : Policy} {depth outer inner limit : Nat} {connective : Connective}
  {left right : Formula}

theorem Admits.ofLeft (h : policy.Admits depth (.join connective left right) (max outer inner)) :
    policy.Admits depth left outer :=
  ⟨by have := h.nesting_le; omega, h.fits.sides.1⟩

theorem Admits.ofRight (h : policy.Admits depth (.join connective left right) (max outer inner)) :
    policy.Admits depth right inner :=
  ⟨by have := h.nesting_le; omega, h.fits.sides.2⟩

theorem Breaks.ofLeft (h : policy.Breaks depth left outer limit) :
    policy.Breaks depth (.join connective left right) (max outer inner) limit := by
  rcases h with ⟨hlimit, hdeep⟩ | ⟨hlimit, hhigh⟩
  · exact .inl ⟨hlimit, by omega⟩
  · exact .inr ⟨hlimit, fun hfits => hhigh hfits.sides.1⟩

theorem Breaks.ofRight (h : policy.Breaks depth right inner limit) :
    policy.Breaks depth (.join connective left right) (max outer inner) limit := by
  rcases h with ⟨hlimit, hdeep⟩ | ⟨hlimit, hhigh⟩
  · exact .inl ⟨hlimit, by omega⟩
  · exact .inr ⟨hlimit, fun hfits => hhigh hfits.sides.2⟩

end Policy

/-! ## Levels that wait -/

namespace Level

/-- The level has a place for what is of the category: an expression starts its level, and an
operand may also be the right side of a join. -/
def Awaits : Category → Level → Prop
  | .expression, level => level = empty
  | .operand, level => ∀ formula height, level ≠ complete formula height

theorem awaits_empty (category : Category) : Awaits category empty := by
  cases category <;> simp [Awaits]

theorem awaits_waiting (connective : Connective) (left : Formula) (leftHeight : Nat) :
    Awaits .operand (waiting connective left leftHeight) := by
  simp [Awaits]

/-- A level that awaits an operand takes a condition as it takes a group of that condition. -/
theorem Awaits.addCondition_eq {level : Level} (h : Awaits .operand level) {text : String}
    {condition : Condition} (htext : Condition.ofText text = .ok condition) (policy : Policy) :
    level.addCondition policy text = level.addGroup policy (.test condition, 1) := by
  cases level with
  | complete formula height => exact absurd rfl (h formula height)
  | empty => simp [addCondition, addGroup, htext]
  | waiting connective left leftHeight => simp [addCondition, addGroup, htext]

end Level

/-! ## From derivations to readings -/

/-- A derivation within the limits is read whole, and its formula goes where the level awaits
one. -/
theorem Derives.readLevel_eq {category : Category} {lexemes : List Lexeme} {formula : Formula}
    {nesting : Nat} (h : Derives category lexemes formula nesting) (policy : Policy) (depth : Nat) :
    ∀ (around : List Level) (level : Level) (rest : List Lexeme), level.Awaits category →
      policy.Admits (depth + around.length) formula nesting →
      readLevel policy depth around level (lexemes ++ rest) =
        level.addGroup policy (formula, formula.height) >>= fun level =>
          readLevel policy depth around level rest := by
  induction h with
  | condition htext =>
    intro around level rest hawaits _
    rw [List.singleton_append, readLevel_condition, hawaits.addCondition_eq htext]
    rfl
  | @group lexemes formula nesting _ ih =>
    intro around level rest _ hadmits
    have hnesting := hadmits.nesting_le
    have hread := ih (level :: around) .empty (.closing :: rest) (Level.awaits_empty _)
      ⟨by rw [List.length_cons]; omega, hadmits.fits⟩
    rw [List.append_assoc, List.cons_append, readLevel_opening, if_neg (by omega),
      List.singleton_append, hread]
    simp only [Level.addGroup, ok_bind, readLevel_closing, Level.close]
  | operand _ ih =>
    intro around level rest hawaits hadmits
    obtain rfl : level = .empty := hawaits
    exact ih around .empty rest (Level.awaits_empty _) hadmits
  | @join before behind left right outer inner connective _ _ ihLeft ihRight =>
    intro around level rest hawaits hadmits
    obtain rfl : level = .empty := hawaits
    have hleft := ihLeft around .empty (.connective connective :: (behind ++ rest))
      (Level.awaits_empty _) hadmits.ofLeft
    have hright := ihRight around (.waiting connective left left.height) rest
      (Level.awaits_waiting _ _ _) hadmits.ofRight
    have hheight : (Formula.join connective left right).height ≤ policy.maxHeight :=
      Policy.fits_join_iff.mp hadmits.fits
    rw [List.append_assoc, List.cons_append, hleft]
    simp only [Level.addGroup, ok_bind, readLevel_connective, Level.addConnective]
    rw [hright, Level.addGroup, Level.ofJoin_eq, if_pos hheight]
    rfl

/-- A derivation beyond a limit is refused, with a limit that it breaks. -/
theorem Derives.readLevel_eq_error {category : Category} {lexemes : List Lexeme}
    {formula : Formula} {nesting : Nat} (h : Derives category lexemes formula nesting)
    (policy : Policy) (depth : Nat) :
    ∀ (around : List Level) (level : Level) (rest : List Lexeme), level.Awaits category →
      depth + around.length ≤ policy.maxNesting →
      ¬ policy.Admits (depth + around.length) formula nesting →
      ∃ limit, policy.Breaks (depth + around.length) formula nesting limit ∧
        readLevel policy depth around level (lexemes ++ rest) = .error (.tooDeep limit) := by
  induction h with
  | condition _ =>
    intro around level rest _ hdepth hbeyond
    exact absurd ⟨hdepth, policy.fits_test _⟩ hbeyond
  | @group lexemes formula nesting _ ih =>
    intro around level rest _ hdepth hbeyond
    rw [List.append_assoc, List.cons_append, readLevel_opening]
    by_cases hdeep : policy.maxNesting ≤ depth + around.length
    · -- the opening parenthesis is already one too many
      exact ⟨policy.maxNesting, .inl ⟨rfl, by omega⟩, if_pos hdeep⟩
    · have hlength : depth + (level :: around).length = depth + around.length + 1 := rfl
      obtain ⟨limit, hbreaks, hread⟩ := ih (level :: around) .empty ([.closing] ++ rest)
        (Level.awaits_empty _) (by omega)
        (fun hadmits => hbeyond ⟨by have := hadmits.nesting_le; omega, hadmits.fits⟩)
      refine ⟨limit, ?_, by rw [if_neg hdeep, hread]⟩
      rcases hbreaks with ⟨hlimit, hnesting⟩ | hhigh
      · exact .inl ⟨hlimit, by omega⟩
      · exact .inr hhigh
  | operand _ ih =>
    intro around level rest hawaits hdepth hbeyond
    obtain rfl : level = .empty := hawaits
    exact ih around .empty rest (Level.awaits_empty _) hdepth hbeyond
  | @join before behind left right outer inner connective hbefore hbehind ihLeft ihRight =>
    intro around level rest hawaits hdepth hbeyond
    obtain rfl : level = .empty := hawaits
    rw [List.append_assoc, List.cons_append]
    by_cases hleft : policy.Admits (depth + around.length) left outer
    · -- the left side is read, so the fault lies in the right side or in the join
      rw [hbefore.readLevel_eq policy depth around .empty _ (Level.awaits_empty _) hleft]
      simp only [Level.addGroup, ok_bind, readLevel_connective, Level.addConnective]
      by_cases hright : policy.Admits (depth + around.length) right inner
      · have hhigh : ¬ policy.Fits (.join connective left right) := fun hfits =>
          hbeyond ⟨by have := hleft.nesting_le; have := hright.nesting_le; omega, hfits⟩
        refine ⟨policy.maxHeight, .inr ⟨rfl, hhigh⟩, ?_⟩
        rw [hbehind.readLevel_eq policy depth around _ rest (Level.awaits_waiting _ _ _) hright,
          Level.addGroup, Level.ofJoin_eq, if_neg (mt Policy.fits_join_iff.mpr hhigh)]
        rfl
      · obtain ⟨limit, hbreaks, hread⟩ := ihRight around (.waiting connective left left.height)
          rest (Level.awaits_waiting _ _ _) hdepth hright
        exact ⟨limit, hbreaks.ofRight, hread⟩
    · obtain ⟨limit, hbreaks, hread⟩ := ihLeft around .empty
        (.connective connective :: (behind ++ rest)) (Level.awaits_empty _) hdepth hleft
      exact ⟨limit, hbreaks.ofLeft, hread⟩

/-! ## From readings to derivations -/

/-- What a strict reading at some depth has made of the lexemes of a level so far. -/
inductive Level.Holds (policy : Policy) (depth : Nat) : Level → List Lexeme → Prop
  | empty : Holds policy depth .empty []
  | complete {lexemes : List Lexeme} {formula : Formula} {nesting : Nat} :
      Derives .expression lexemes formula nesting → policy.Admits depth formula nesting →
      Holds policy depth (.complete formula formula.height) lexemes
  | waiting {lexemes : List Lexeme} {left : Formula} {nesting : Nat} (connective : Connective) :
      Derives .expression lexemes left nesting → policy.Admits depth left nesting →
      Holds policy depth (.waiting connective left left.height)
        (lexemes ++ [.connective connective])

namespace Level.Holds

variable {policy : Policy} {depth : Nat} {level : Level} {lexemes : List Lexeme}

theorem close (h : Holds policy depth level lexemes) {formula : Formula} {height : Nat}
    (hclose : level.close = .ok (formula, height)) :
    height = formula.height ∧
      ∃ nesting, Derives .expression lexemes formula nesting ∧
        policy.Admits depth formula nesting := by
  obtain rfl : level = .complete formula height := eq_of_close hclose
  cases h with
  | complete hderives hadmits => exact ⟨rfl, _, hderives, hadmits⟩

theorem addConnective (h : Holds policy depth level lexemes) {connective : Connective}
    {level' : Level} (hadd : level.addConnective connective = .ok level') :
    Holds policy depth level' (lexemes ++ [.connective connective]) := by
  obtain ⟨formula, height, rfl, rfl⟩ := exists_of_addConnective hadd
  cases h with
  | complete hderives hadmits => exact .waiting connective hderives hadmits

/-- A strict reading puts an operand only where the grammar has a place for one. -/
theorem addGroup (h : Holds policy depth level lexemes) (hstrict : policy.isStrict = true)
    {behind : List Lexeme} {formula : Formula} {nesting : Nat}
    (hderives : Derives .operand behind formula nesting)
    (hadmits : policy.Admits depth formula nesting) {level' : Level}
    (hadd : level.addGroup policy (formula, formula.height) = .ok level') :
    Holds policy depth level' (lexemes ++ behind) := by
  cases h with
  | empty =>
    obtain rfl := Except.ok.inj hadd
    exact .complete hderives.operand hadmits
  | complete _ _ => simp [Level.addGroup, hstrict] at hadd
  | @waiting before left outer connective hbefore hleft =>
    rw [Level.addGroup, Level.ofJoin_eq] at hadd
    split at hadd
    · next hheight =>
      obtain rfl := Except.ok.inj hadd
      rw [List.append_assoc, List.singleton_append]
      refine .complete (hbefore.join connective hderives) ⟨?_, .inr hheight⟩
      have := hleft.nesting_le
      have := hadmits.nesting_le
      omega
    · exact absurd hadd (by simp)

theorem addCondition (h : Holds policy depth level lexemes) (hstrict : policy.isStrict = true)
    (hdepth : depth ≤ policy.maxNesting) {text : String} {level' : Level}
    (hadd : level.addCondition policy text = .ok level') :
    Holds policy depth level' (lexemes ++ [.condition text]) := by
  obtain ⟨condition, htext, -⟩ := bind_eq_ok_iff.mp hadd
  have hawaits : level.Awaits .operand := by
    intro formula height hlevel
    simp [hlevel, Level.addCondition, htext, hstrict] at hadd
  rw [hawaits.addCondition_eq htext] at hadd
  exact h.addGroup hstrict (.condition htext) ⟨hdepth, policy.fits_test condition⟩ hadd

end Level.Holds

/-- What a strict reading has made of the lexemes around the level that it is in: each level
around holds what stands before the parenthesis that opens the next. -/
inductive Surrounds (policy : Policy) : List Level → List Lexeme → Prop
  | nil : Surrounds policy [] []
  | cons {level : Level} {around : List Level} {outside lexemes : List Lexeme} :
      level.Holds policy around.length lexemes → Surrounds policy around outside →
      around.length < policy.maxNesting →
      Surrounds policy (level :: around) (outside ++ lexemes ++ [.opening])

/-- The levels around a level are within the limit. -/
theorem Surrounds.length_le {policy : Policy} {around : List Level} {outside : List Lexeme}
    (h : Surrounds policy around outside) : around.length ≤ policy.maxNesting := by
  cases h with
  | nil => exact Nat.zero_le _
  | cons _ _ hlength => exact hlength

/-- A strict run that succeeds has read a derivation within the limits. -/
theorem Run.derives {policy : Policy} {around : List Level} {level : Level}
    {lexemes outside inside : List Lexeme} {result : Formula × Nat × List Lexeme}
    (hrun : Run policy 0 around level lexemes result) (hstrict : policy.isStrict = true)
    (haround : Surrounds policy around outside)
    (hlevel : level.Holds policy around.length inside) :
    ∃ nesting, Derives .expression (outside ++ inside ++ lexemes) result.1 nesting ∧
      policy.Admits 0 result.1 nesting := by
  induction hrun generalizing outside inside with
  | atEnd hdepth hclose =>
    obtain ⟨-, nesting, hderives, hadmits⟩ := hlevel.close hclose
    cases haround with
    | nil => exact ⟨nesting, by simpa using hderives, hadmits⟩
    | cons _ _ _ => simp at hdepth
  | opening hdeep _ ih =>
    -- what the level holds moves onto the stack, and an empty level is entered
    obtain ⟨nesting, hderives, hadmits⟩ := ih (.cons hlevel haround (by omega)) .empty
    exact ⟨nesting, by simpa using hderives, hadmits⟩
  | lastClosing hlenient _ => exact absurd ⟨rfl, hstrict⟩ hlenient
  | @closing outer outer' around level rest group result hclose hadd _ ih =>
    obtain ⟨formula, height⟩ := group
    obtain ⟨rfl, nesting, hderives, hadmits⟩ := hlevel.close hclose
    cases haround with
    | cons houter haround hlength =>
      -- outside its parentheses the group nests one level deeper, from one level less deep
      have hgroup : policy.Admits around.length formula (nesting + 1) :=
        ⟨by have := hadmits.nesting_le; simp only [List.length_cons] at this; omega,
          hadmits.fits⟩
      obtain ⟨nesting, hderives, hadmits⟩ :=
        ih haround (houter.addGroup hstrict hderives.group hgroup hadd)
      exact ⟨nesting, by simpa using hderives, hadmits⟩
  | connective hadd _ ih =>
    obtain ⟨nesting, hderives, hadmits⟩ := ih haround (hlevel.addConnective hadd)
    exact ⟨nesting, by simpa using hderives, hadmits⟩
  | condition hadd _ ih =>
    obtain ⟨nesting, hderives, hadmits⟩ :=
      ih haround (hlevel.addCondition hstrict haround.length_le hadd)
    exact ⟨nesting, by simpa using hderives, hadmits⟩

/-! ## The formula of lexemes -/

/-- A derivation within the limits gives the formula of its lexemes, whatever the mode. -/
theorem Derives.ofLexemes_eq {lexemes : List Lexeme} {formula : Formula} {nesting : Nat}
    (h : Derives .expression lexemes formula nesting) {policy : Policy}
    (hadmits : policy.Admits 0 formula nesting) :
    Formula.ofLexemes policy lexemes = .ok formula := by
  have hread := h.readLevel_eq policy 0 [] .empty [] rfl (by simpa using hadmits)
  rw [List.append_nil] at hread
  rw [Formula.ofLexemes, hread]
  simp only [Level.addGroup, ok_bind, readLevel_nil, Level.close]
  rfl

/-- The formula that a strict reading gives is that of a derivation within the limits. -/
theorem derives_of_ofLexemes {policy : Policy} (hstrict : policy.isStrict = true)
    {lexemes : List Lexeme} {formula : Formula}
    (h : Formula.ofLexemes policy lexemes = .ok formula) :
    ∃ nesting, Derives .expression lexemes formula nesting ∧ policy.Admits 0 formula nesting := by
  obtain ⟨result, hread, rfl⟩ := map_eq_ok_iff.mp h
  exact (Run.of_readLevel hread).derives hstrict .nil .empty

/-- The grammar is unambiguous: lexemes make one formula at most. -/
theorem Derives.formula_unique {lexemes : List Lexeme} {formula formula' : Formula}
    {nesting nesting' : Nat} (h : Derives .expression lexemes formula nesting)
    (h' : Derives .expression lexemes formula' nesting') : formula = formula' := by
  let policy : Policy :=
    ⟨.strict, max nesting nesting', max formula.height formula'.height⟩
  have hread : Formula.ofLexemes policy lexemes = .ok formula :=
    h.ofLexemes_eq ⟨by show 0 + _ ≤ max _ _; omega, .inr (Nat.le_max_left _ _)⟩
  have hread' : Formula.ofLexemes policy lexemes = .ok formula' :=
    h'.ofLexemes_eq ⟨by show 0 + _ ≤ max _ _; omega, .inr (Nat.le_max_right _ _)⟩
  rw [hread] at hread'
  exact Except.ok.inj hread'

/-- A strict reading of lexemes accepts exactly the expressions of the grammar whose parentheses
and whose formula are within the limits, and gives their formula. An expression beyond a limit is
refused, and the limit that is reported is one that it breaks. -/
theorem strict_reading_iff_derives (policy : Policy) (hstrict : policy.mode = .strict)
    (lexemes : List Lexeme) :
    (∀ formula, Formula.ofLexemes policy lexemes = .ok formula ↔
      ∃ nesting, Derives .expression lexemes formula nesting ∧
        nesting ≤ policy.maxNesting ∧
        (formula.isTest = true ∨ formula.height ≤ policy.maxHeight)) ∧
    ∀ formula nesting, Derives .expression lexemes formula nesting →
      ¬ (nesting ≤ policy.maxNesting ∧
        (formula.isTest = true ∨ formula.height ≤ policy.maxHeight)) →
      ∃ limit, Formula.ofLexemes policy lexemes = .error (.tooDeep limit) ∧
        (limit = policy.maxNesting ∧ policy.maxNesting < nesting ∨
          limit = policy.maxHeight ∧ policy.maxHeight < formula.height) := by
  have hisStrict : policy.isStrict = true := by simp [Policy.isStrict, hstrict]
  have hadmits : ∀ formula nesting, policy.Admits 0 formula nesting ↔
      nesting ≤ policy.maxNesting ∧
        (formula.isTest = true ∨ formula.height ≤ policy.maxHeight) := by
    intro formula nesting
    exact ⟨fun h => ⟨by have := h.nesting_le; omega, h.fits⟩, fun h => ⟨by omega, h.2⟩⟩
  refine ⟨fun formula => ⟨?_, ?_⟩, ?_⟩
  · intro hread
    obtain ⟨nesting, hderives, hwithin⟩ := derives_of_ofLexemes hisStrict hread
    exact ⟨nesting, hderives, (hadmits formula nesting).mp hwithin⟩
  · rintro ⟨nesting, hderives, hwithin⟩
    exact hderives.ofLexemes_eq ((hadmits formula nesting).mpr hwithin)
  · intro formula nesting hderives hbeyond
    obtain ⟨limit, hbreaks, hread⟩ := hderives.readLevel_eq_error policy 0 [] .empty [] rfl
      (Nat.zero_le _) (by simpa [hadmits] using hbeyond)
    refine ⟨limit, ?_, ?_⟩
    · rw [List.append_nil] at hread
      rw [Formula.ofLexemes, hread]
      rfl
    · rcases hbreaks with ⟨hlimit, hdeep⟩ | ⟨hlimit, hhigh⟩
      · exact .inl ⟨hlimit, by simpa using hdeep⟩
      · exact .inr ⟨hlimit, by have := mt Or.inr hhigh; omega⟩

/-- The expression `(a = 'x' OR b = 'y') AND c = 'z'` is read under the limits 1 and 3, and under
the limits 1 and 2 its height is refused. -/
theorem strict_reading_of_grouped_side :
    Formula.ofLexemes ⟨.strict, 1, 3⟩ [.opening, .condition "a = 'x'", .connective .or,
        .condition "b = 'y'", .closing, .connective .and, .condition "c = 'z'"] =
      .ok (.join .and (.join .or (.test ⟨"a", .eq, .text "x"⟩) (.test ⟨"b", .eq, .text "y"⟩))
        (.test ⟨"c", .eq, .text "z"⟩)) ∧
    Formula.ofLexemes ⟨.strict, 1, 2⟩ [.opening, .condition "a = 'x'", .connective .or,
        .condition "b = 'y'", .closing, .connective .and, .condition "c = 'z'"] =
      .error (.tooDeep 2) := by
  have ha : Condition.ofText "a = 'x'" = .ok ⟨"a", .eq, .text "x"⟩ := rfl
  have hb : Condition.ofText "b = 'y'" = .ok ⟨"b", .eq, .text "y"⟩ := rfl
  have hc : Condition.ofText "c = 'z'" = .ok ⟨"c", .eq, .text "z"⟩ := rfl
  have hgroup := Derives.group (.join .or (.operand (.condition ha)) (.condition hb))
  have hderives := Derives.join .and (.operand hgroup) (.condition hc)
  refine ⟨((strict_reading_iff_derives ⟨.strict, 1, 3⟩ rfl _).1 _).2
    ⟨1, hderives, by decide, by decide⟩, ?_⟩
  obtain ⟨limit, hread, hlimit⟩ := (strict_reading_iff_derives ⟨.strict, 1, 2⟩ rfl _).2
    _ 1 hderives (by decide)
  obtain ⟨-, hdeep⟩ | ⟨rfl, -⟩ := hlimit
  · exact absurd hdeep (by decide)
  · exact hread

end Criteria
