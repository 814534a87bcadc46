import SearchFilter.Expression
import SearchFilter.Pattern
import SearchFilter.Selector.Reader

/-!
# Selectors as search expressions

Every comparison of a selector becomes a predicate on the field behind its property, and
connectives become clauses. Groups leave no trace, and clauses of one connective are merged.
-/

namespace SearchFilter

/-- Why a text gives no expression. -/
inductive SelectorError where
  | malformed (e : Selector.SyntaxError)
  | unknownProperty (property : String)
  deriving DecidableEq, Repr

def SelectorError.message : SelectorError → String
  | malformed e => e.message
  | unknownProperty property => s!"unknown selector property: {property}"

namespace Comparator

/-- The wildcard of the texts that start with a value. -/
def openValue (value : String) : String :=
  if value.toList.getLast? = some '*' then value else value ++ "*"

/-- The comparison of a field with a value. A value that is absent counts as different, and a
regular expression is meant for one element of the list that a field may hold. -/
def expression (field : Field) (value : String) : Comparator → Expression
  | equal => Expression.compare field .eq (.exact value)
  | notEqual =>
    .clause .or (Expression.compare field .eq .null)
      [Expression.compare field .notEq (.exact value)]
  | startsWith => Expression.compare field .eq (.wildcard (openValue value) false)
  | matching => Expression.compare field .regex (.exact (elementRegex value))

end Comparator

namespace Selector

/-- The expression that a selector stands for. The first property without a field is the error. -/
def toExpression (aliases : Aliases) : Selector → Except SelectorError Expression
  | comparison property op value =>
    match aliases property with
    | some field => .ok (op.expression field value)
    | none => .error (.unknownProperty property)
  | logical op left right => do
    let a ← toExpression aliases left
    let b ← toExpression aliases right
    return a.flatten op [b]
  | group inner => toExpression aliases inner

/-- A way of reading selectors. -/
abbrev Reader := String → Except SyntaxError Selector

/-- The expression that a text stands for. -/
def expressionOf (reader : Reader) (aliases : Aliases) (text : String) :
    Except SelectorError Expression := do
  let selector ← (reader text).mapError .malformed
  toExpression aliases selector

end Selector

end SearchFilter
