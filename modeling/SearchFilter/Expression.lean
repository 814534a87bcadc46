import SearchFilter.Field
import SearchFilter.Formula
import SearchFilter.Term

/-!
# Search expressions

An expression is a formula over predicates, each of which compares one field with a term.
-/

namespace SearchFilter

/-- How a predicate compares a field with its term. -/
inductive Operand where
  | eq
  | notEq
  | any
  | oneOf
  | regex
  deriving DecidableEq, Repr

namespace Operand

def all : List Operand := [eq, notEq, any, oneOf, regex]

def name : Operand → String
  | eq => "EQ"
  | notEq => "NOT_EQ"
  | any => "ANY"
  | oneOf => "IN"
  | regex => "REGEX"

/-- Whether the operand compares with several terms at once. -/
def acceptsMultiple : Operand → Bool
  | any | oneOf => true
  | eq | notEq | regex => false

end Operand

/-- The comparison of one field with a term. -/
structure Predicate where
  field : Field
  operand : Operand
  term : Term
  deriving DecidableEq

/-- A search expression. -/
abbrev Expression := Formula Predicate

namespace Expression

/-- The expression that compares one field with a term. -/
def compare (field : Field) (operand : Operand) (term : Term) : Expression :=
  .atom ⟨field, operand, term⟩

/-- A search restricted to what a permission allows. Where one of the two is absent the other
stands alone. -/
def restrict : Option Expression → Option Expression → Option Expression
  | some request, some permission => some (request.flatten .and [permission])
  | some request, none => some request
  | none, permission => permission

end Expression

end SearchFilter
