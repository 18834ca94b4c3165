import Mathlib.Data.List.Forall2
import Criteria.Proofs.Embedding

/-!
# Combined rules and their parenthesised join

Rules can be combined, or put between parentheses and joined to one text by the connective. Both
ways lead to the same formula: the text keeps the pieces of every rule (`pieces_joined`), so its
lexemes are an expression that joins the formulas of the rules from the left, and the heights grow
the same way. The parentheses around the rules take one more level than the rules themselves.
-/

namespace Criteria

open Outcome
open Text (isBlank)

/-- The policy that lets parentheses nest one level deeper. -/
def Policy.deeper (policy : Policy) : Policy :=
  { policy with maxNesting := policy.maxNesting + 1 }

/-! ## Joining from the left -/

variable {policy : Policy} {connective : Connective}

/-- What has been joined first is a part of what has been joined in the end. -/
theorem Policy.Fits.of_foldl {rest : List Formula} {joined : Formula}
    (h : policy.Fits (rest.foldl (.join connective) joined)) : policy.Fits joined := by
  induction rest generalizing joined with
  | nil => exact h
  | cons next rest ih => exact (ih h).sides.1

namespace Formula

/-- The heights that are carried along are those of the formulas, so joining from the left stops
iff the last formula would be too high. -/
theorem foldlM_joinWithin_eq {joined : Formula} (hfits : policy.Fits joined)
    (rest : List Formula) :
    rest.foldlM (fun joined next => joinWithin policy connective joined (next, next.height))
        (joined, joined.height) =
      if policy.Fits (rest.foldl (.join connective) joined) then
        .ok (rest.foldl (.join connective) joined,
          (rest.foldl (.join connective) joined).height)
      else .error (.tooDeep policy.maxHeight) := by
  induction rest generalizing joined with
  | nil =>
    rw [List.foldl_nil, if_pos hfits]
    rfl
  | cons next rest ih =>
    rw [List.foldlM_cons, List.foldl_cons, joinWithin_eq]
    by_cases hnext : policy.Fits (.join connective joined next)
    · rw [if_pos (Policy.fits_join_iff.mp hnext), ok_bind]
      exact ih hnext
    · rw [if_neg (mt Policy.fits_join_iff.mpr hnext), error_bind,
        if_neg fun hlast => hnext hlast.of_foldl]

theorem combine_eq_ite {first : Formula} (hfits : policy.Fits first) (rest : List Formula) :
    combine policy connective (first :: rest) =
      if policy.Fits (rest.foldl (.join connective) first) then
        .ok (rest.foldl (.join connective) first)
      else .error (.tooDeep policy.maxHeight) := by
  rw [combine, foldlM_joinWithin_eq hfits]
  split <;> rfl

end Formula

/-! ## The text of joined rules -/

namespace Rule

/-- The rule between parentheses. -/
def group (rule : String) : String :=
  "(" ++ rule ++ ")"

/-- The rules between parentheses, with the connective between neighbours. -/
def joined (connective : Connective) (rules : List String) : String :=
  (" " ++ connective.word ++ " ").intercalate (rules.map group)

theorem toList_joined_singleton (connective : Connective) (rule : String) :
    (joined connective [rule]).toList = '(' :: (rule.toList ++ [')']) := by
  simp [joined, group]

theorem toList_joined_cons_cons (connective : Connective) (rule next : String)
    (rest : List String) :
    (joined connective (rule :: next :: rest)).toList =
      '(' :: (rule.toList ++ ')' :: ' ' :: (connective.word.toList ++
        ' ' :: (joined connective (next :: rest)).toList)) := by
  simp [joined, group]

end Rule

namespace Lexeme

/-- The pieces of a tidy rule between parentheses. -/
def groupPieces (rule : String) : List Piece :=
  .found .opening :: (pieces rule.toList ++ [.found .closing])

/-- The lexemes of a tidy rule between parentheses. -/
def groupLexemes (rule : String) : List Lexeme :=
  .opening :: lexemesOf rule.toList ++ [.closing]

/-- The pieces of joined rules are those of the rules, with a blank before and behind every
connective between them. -/
theorem pieces_joined (connective : Connective) (rule : String) (rest : List String)
    (htidy : ∀ other ∈ rule :: rest, Tidy other.toList) :
    pieces (Rule.joined connective (rule :: rest)).toList =
      groupPieces rule ++ rest.flatMap fun next =>
        .passed ' ' :: .found (.connective connective) :: .passed ' ' :: groupPieces next := by
  induction rest generalizing rule with
  | nil =>
    rw [Rule.toList_joined_singleton, pieces_group (htidy rule List.mem_cons_self)]
    simp [groupPieces, pieces, piecesFrom]
  | cons next rest ih =>
    have hspace : Text.isWord ' ' = false := Text.isWord_eq_false_of_isBlank isBlank_space
    rw [Rule.toList_joined_cons_cons, pieces_group (htidy rule List.mem_cons_self),
      pieces_cons_of_isBlank isBlank_space, pieces_connective connective hspace,
      pieces_cons_of_isBlank isBlank_space,
      ih next fun other hmem => htidy other (List.mem_cons_of_mem _ hmem)]
    simp [groupPieces]

theorem lexemesOf_joined (connective : Connective) (rule : String) (rest : List String)
    (htidy : ∀ other ∈ rule :: rest, Tidy other.toList) :
    lexemesOf (Rule.joined connective (rule :: rest)).toList =
      groupLexemes rule ++ rest.flatMap fun next =>
        .connective connective :: groupLexemes next := by
  have hgroup : ∀ other, (groupPieces other).filterMap Piece.lexeme? = groupLexemes other := by
    intro other
    simp [groupPieces, groupLexemes, lexemesOf]
  rw [lexemesOf, pieces_joined connective rule rest htidy, List.filterMap_append, hgroup,
    List.filterMap_flatMap]
  simp [List.filterMap_cons, hgroup]

/-- Joined rules are tidy if the rules are. -/
theorem tidy_joined (connective : Connective) (rule : String) (rest : List String)
    (htidy : ∀ other ∈ rule :: rest, Tidy other.toList) :
    Tidy (Rule.joined connective (rule :: rest)).toList := by
  have hgroup : ∀ other ∈ rule :: rest, ∀ c, .passed c ∈ groupPieces other →
      isBlank c = true := by
    intro other hmem c hc
    exact htidy other hmem c (by simpa [groupPieces] using hc)
  intro c hc
  rw [pieces_joined connective rule rest htidy] at hc
  rcases List.mem_append.mp hc with hfirst | hrest
  · exact hgroup rule List.mem_cons_self c hfirst
  · obtain ⟨next, hnext, hpiece⟩ := List.mem_flatMap.mp hrest
    simp only [List.mem_cons, Piece.passed.injEq, reduceCtorEq, false_or] at hpiece
    rcases hpiece with rfl | rfl | hinside
    · exact isBlank_space
    · exact isBlank_space
    · exact hgroup next (List.mem_cons_of_mem _ hnext) c hinside

end Lexeme

/-! ## Compiling joined rules -/

namespace Rule

open Lexeme (Tidy groupLexemes)

/-- The formulas are those that the rules compile to strictly, one for each. -/
abbrev CompileTo (policy : Policy) : List String → List Formula → Prop :=
  List.Forall₂ fun rule formula => compile policy.strictly rule = .ok formula

theorem exists_compileTo {rules : List String}
    (hcompile : ∀ rule ∈ rules, ∃ formula, compile policy.strictly rule = .ok formula) :
    ∃ formulas, CompileTo policy rules formulas := by
  induction rules with
  | nil => exact ⟨[], .nil⟩
  | cons rule rules ih =>
    obtain ⟨formula, hformula⟩ := hcompile rule List.mem_cons_self
    obtain ⟨formulas, hformulas⟩ :=
      ih fun other hmem => hcompile other (List.mem_cons_of_mem _ hmem)
    exact ⟨formula :: formulas, .cons hformula hformulas⟩

/-- The lexemes of a rule between parentheses are an operand that nests one level deeper. -/
theorem derives_groupLexemes {rule : String} {formula : Formula}
    (h : compile policy.strictly rule = .ok formula) :
    ∃ nesting, Derives .operand (groupLexemes rule) formula nesting ∧
      nesting ≤ policy.deeper.maxNesting := by
  obtain ⟨-, nesting, hderives, hadmits⟩ := derives_of_compile h
  have hnesting := hadmits.nesting_le
  exact ⟨nesting + 1, .group hderives, show nesting + 1 ≤ policy.maxNesting + 1 by omega⟩

namespace CompileTo

variable {rule : String} {rules : List String} {first : Formula} {formulas : List Formula}

theorem tidy (h : CompileTo policy rules formulas) : ∀ rule ∈ rules, Tidy rule.toList := by
  induction h with
  | nil => simp
  | cons hrule _ ih =>
    intro other hmem
    rcases List.mem_cons.mp hmem with rfl | hmem
    · exact (derives_of_compile hrule).1
    · exact ih other hmem

/-- Groups behind an expression join their formulas to it one by one. -/
theorem derives_append (h : CompileTo policy rules formulas) (connective : Connective)
    {before : List Lexeme} {left : Formula} {outer : Nat}
    (hleft : Derives .expression before left outer) (houter : outer ≤ policy.deeper.maxNesting) :
    ∃ nesting,
      Derives .expression
        (before ++ rules.flatMap fun rule => .connective connective :: groupLexemes rule)
        (formulas.foldl (.join connective) left) nesting ∧
      nesting ≤ policy.deeper.maxNesting := by
  induction h generalizing before left outer with
  | nil => exact ⟨outer, by simpa using hleft, houter⟩
  | cons hrule _ ih =>
    obtain ⟨inner, hgroup, hinner⟩ := derives_groupLexemes hrule
    obtain ⟨nesting, hderives, hnesting⟩ := ih (hleft.join connective hgroup)
      (Nat.max_le.mpr ⟨houter, hinner⟩)
    exact ⟨nesting, by simpa using hderives, hnesting⟩

/-- Joined rules compile to the formulas of the rules joined from the left, unless that formula is
too high. -/
theorem compile_joined (h : CompileTo policy rules formulas)
    (hfirst : compile policy.strictly rule = .ok first) (connective : Connective) :
    compile policy.deeper (joined connective (rule :: rules)) =
      if policy.Fits (formulas.foldl (.join connective) first) then
        .ok (formulas.foldl (.join connective) first)
      else .error (.tooDeep policy.maxHeight) := by
  have htidy : ∀ other ∈ rule :: rules, Tidy other.toList :=
    tidy (List.Forall₂.cons hfirst h)
  obtain ⟨outer, hgroup, houter⟩ := derives_groupLexemes hfirst
  obtain ⟨nesting, hderives, hnesting⟩ := h.derives_append connective hgroup.operand houter
  rw [← Lexeme.lexemesOf_joined connective rule rules htidy] at hderives
  exact compile_eq_ite_of_tidy (Lexeme.tidy_joined connective rule rules htidy) hderives hnesting

theorem mapM_compile_eq (h : CompileTo policy rules formulas) :
    rules.mapM (compile policy) = .ok formulas := by
  induction h with
  | nil => rfl
  | cons hrule _ ih =>
    rw [List.mapM_cons, compile_eq_of_strictly hrule, ok_bind, ih, ok_bind]
    rfl

/-- Combined rules become the same formula, with the same exception. -/
theorem combine_eq (h : CompileTo policy rules formulas)
    (hfirst : compile policy.strictly rule = .ok first) (connective : Connective) :
    combine policy connective (rule :: rules) =
      if policy.Fits (formulas.foldl (.join connective) first) then
        .ok (formulas.foldl (.join connective) first)
      else .error (.tooDeep policy.maxHeight) := by
  obtain ⟨-, nesting, -, hadmits⟩ := derives_of_compile hfirst
  have hmap : (rule :: rules).mapM (compile policy) = .ok (first :: formulas) :=
    mapM_compile_eq (List.Forall₂.cons hfirst h)
  rw [combine, if_neg (List.cons_ne_nil _ _), hmap, ok_bind]
  exact Formula.combine_eq_ite hadmits.fits formulas

end CompileTo

end Rule

/-- Rules that compile strictly are combined into what their parenthesised join compiles to where
parentheses may nest one level deeper: the same formula, or the refusal of one that is too high. It
is so in either mode. -/
theorem compile_joined_eq_combine (policy : Policy) (connective : Connective)
    (rules : List String) (hrules : rules ≠ [])
    (hcompile : ∀ rule ∈ rules, ∃ formula, Rule.compile policy.strictly rule = .ok formula) :
    Rule.compile policy.strictly.deeper (Rule.joined connective rules) =
        Rule.combine policy.strictly connective rules ∧
      Rule.compile policy.leniently.deeper (Rule.joined connective rules) =
        Rule.combine policy.leniently connective rules ∧
      ((∃ formula, Rule.combine policy.strictly connective rules = .ok formula) ∨
        Rule.combine policy.strictly connective rules = .error (.tooDeep policy.maxHeight)) := by
  obtain ⟨rule, rest, rfl⟩ := List.exists_cons_of_ne_nil hrules
  obtain ⟨first, hfirst⟩ := hcompile rule List.mem_cons_self
  obtain ⟨formulas, hformulas⟩ := Rule.exists_compileTo fun other hmem =>
    hcompile other (List.mem_cons_of_mem _ hmem)
  -- what the rules compile to strictly is the same for all modes of the policy
  have hequal : ∀ mode,
      Rule.compile { policy with mode := mode }.deeper (Rule.joined connective (rule :: rest)) =
        Rule.combine { policy with mode := mode } connective (rule :: rest) := by
    intro mode
    have hformulas : Rule.CompileTo { policy with mode := mode } rest formulas := hformulas
    rw [hformulas.compile_joined hfirst, hformulas.combine_eq hfirst]
  refine ⟨hequal .strict, hequal .lenient, ?_⟩
  have hstrictly : Rule.CompileTo policy.strictly rest formulas := hformulas
  rw [hstrictly.combine_eq hfirst]
  by_cases hfits : policy.strictly.Fits (formulas.foldl (.join connective) first)
  · exact .inl ⟨_, if_pos hfits⟩
  · exact .inr (if_neg hfits)

/-- Parentheses and keywords in the texts of the rules and blanks around a rule do not matter. The
joined formula has three levels, and a limit of two refuses it. -/
theorem compile_joined_of_parentheses_in_texts :
    Rule.compile ⟨.strict, 2, 3⟩ "(a = 'x) OR (y' AND b >= 007) OR ( (m = \"AND\") )" =
      .ok (.join .or
        (.join .and (.test ⟨"a", .eq, .text "x) OR (y"⟩) (.test ⟨"b", .ge, .number (.ofNat 7)⟩))
        (.test ⟨"m", .eq, .text "AND"⟩)) ∧
    Rule.compile ⟨.lenient, 2, 2⟩ "(a = 'x) OR (y' AND b >= 007) OR ( (m = \"AND\") )" =
      .error (.tooDeep 2) := by
  let rules := ["a = 'x) OR (y' AND b >= 007", " (m = \"AND\") "]
  have hjoined : Rule.joined .or rules =
      "(a = 'x) OR (y' AND b >= 007) OR ( (m = \"AND\") )" := by decide +kernel
  have hcompile : ∀ limit ∈ [2, 3], ∀ rule ∈ rules,
      ∃ formula, Rule.compile ⟨.strict, 1, limit⟩ rule = .ok formula := by
    have hfirst : ∀ limit ∈ [2, 3], Rule.compile ⟨.strict, 1, limit⟩ "a = 'x) OR (y' AND b >= 007" =
        .ok (.join .and (.test ⟨"a", .eq, .text "x) OR (y"⟩)
          (.test ⟨"b", .ge, .number (.ofNat 7)⟩)) := by decide +kernel
    have hsecond : ∀ limit ∈ [2, 3], Rule.compile ⟨.strict, 1, limit⟩ " (m = \"AND\") " =
        .ok (.test ⟨"m", .eq, .text "AND"⟩) := by decide +kernel
    intro limit hlimit rule hrule
    rcases List.mem_pair.mp hrule with rfl | rfl
    · exact ⟨_, hfirst limit hlimit⟩
    · exact ⟨_, hsecond limit hlimit⟩
  rw [← hjoined]
  constructor
  · have hequal := (compile_joined_eq_combine ⟨.strict, 1, 3⟩ .or rules (List.cons_ne_nil _ _)
      (hcompile 3 (by decide))).1
    exact hequal.trans (by decide +kernel)
  · have hequal := (compile_joined_eq_combine ⟨.strict, 1, 2⟩ .or rules (List.cons_ne_nil _ _)
      (hcompile 2 (by decide))).2.1
    exact hequal.trans (by decide +kernel)

end Criteria
