import SearchFilter.Dialect
import SearchFilter.Expression

/-!
# Issues

What can be wrong with a predicate. An expression with issues has no condition, and all of them
are told at once.
-/

namespace SearchFilter

/-- The ways of comparing that an operand may not be available in. -/
inductive Strategy where
  | tsquery
  | like
  | regex
  deriving DecidableEq, Repr

namespace Strategy

def name : Strategy → String
  | tsquery => "tsquery"
  | like => "LIKE"
  | regex => "regex"

end Strategy

/-- How a dialect searches texts. -/
def Dialect.textStrategy : Dialect → Strategy
  | .postgres => .tsquery
  | .h2 => .like

/-- What is wrong with a predicate. -/
inductive Problem where
  /-- The operand takes one term and got several. -/
  | arity (terms : Nat)
  /-- The columns of the field do not allow the operand. -/
  | unsupported (strategy : Strategy)
  /-- The operand cannot compare with an absent value. -/
  | nullTerm
  deriving DecidableEq, Repr

/-- A problem with the predicate of a field and an operand. -/
structure Issue where
  field : Field
  operand : Operand
  problem : Problem
  deriving DecidableEq, Repr

namespace Issue

def message (i : Issue) : String :=
  let subject := s!"{i.operand.name} on '{i.field.label}'"
  match i.problem with
  | .arity n => s!"{subject} accepts a single term but got {n}"
  | .unsupported strategy => s!"{subject} is not supported by the {strategy.name} strategy"
  | .nullTerm => s!"{subject} cannot match a null term"

end Issue

/-- An expression that has no condition, as it has issues. -/
structure InvalidExpression where
  issues : List Issue
  deriving DecidableEq, Repr

def InvalidExpression.message (e : InvalidExpression) : String :=
  "invalid search expression: " ++ "; ".intercalate (e.issues.map Issue.message)

end SearchFilter
