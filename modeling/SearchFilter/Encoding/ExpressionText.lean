import SearchFilter.Encoding.Model
import SearchFilter.Encoding.Reader

/-!
# Expressions as text

Of a text in JSON only what makes up an expression is read. A predicate or a clause may have other
members, of which nothing but the form counts; the members of a term count all.
-/

namespace SearchFilter

namespace Expression

/-- A place in the JSON form of an expression. -/
inductive Place where
  | expression
  | predicate
  | clause
  | children
  /-- Somewhere where all members are wanted. -/
  | other
  deriving DecidableEq, Repr

/-- The members that make up an expression. A predicate or a clause may also be the array of its
parts. -/
def outline : Json.Outline Place where
  member?
    | .expression, "predicate" => some .predicate
    | .expression, "clause" => some .clause
    | .predicate, name =>
      if name = "field" ∨ name = "operand" ∨ name = "term" then some .other else none
    | .clause, name =>
      if name = "children" then some .children
      else if name = "operand" then some .other
      else none
    | _, _ => some .other
  item
    | .clause => .children
    | .children => .expression
    | _ => .other

/-- The expression that a text in JSON stands for. -/
def ofText? (text : String) : Option Expression :=
  match (Json.readWith? outline .expression text).map ofJson with
  | some (.ok e) => some e
  | _ => none

end Expression

end SearchFilter
