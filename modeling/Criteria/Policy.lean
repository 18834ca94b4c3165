/-!
# Policies

A policy says how a rule is read: whether text that is no part of a rule is an error, how deep
parentheses may nest, and how many levels the formula of a rule may have.
-/

namespace Criteria

/-- How text is treated that a rule cannot use: a lenient reading passes over it, a strict one
refuses it. -/
inductive Mode where
  | lenient
  | strict
deriving DecidableEq

/-- The way rules are read, and the limits they are held to. -/
structure Policy where
  mode : Mode := .lenient
  maxNesting : Nat := 64
  maxHeight : Nat := 100
deriving DecidableEq

/-- The policy refuses what a rule cannot use. -/
def Policy.isStrict (policy : Policy) : Bool :=
  policy.mode == .strict

end Criteria
