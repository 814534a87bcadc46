import SearchFilter.Condition.Parameters
import SearchFilter.Condition.Piece
import SearchFilter.Condition.Placeholder

/-!
# Conditions

A condition is the text of an SQL predicate with named parameters. Its placeholders carry a
namespace, so that two conditions can stand in one statement.
-/

namespace SearchFilter

/-- An SQL predicate, without the word `WHERE`, and the values of its placeholders. -/
structure Condition where
  sqlText : String
  parameters : Parameters
  ns : String

/-- The placeholder of a name in a namespace. -/
def placeholder (ns name : String) : String := "#\x7b" ++ ns ++ "." ++ name ++ "\x7d"

namespace Bindings

/-- The texts of pieces, each slot filled with the placeholder of a fresh name, and the bindings
that this leaves. -/
def fill (ns : String) (b : Bindings) : List Piece → List String × Bindings
  | [] => ([], b)
  | .text s :: rest =>
    let (texts, last) := fill ns b rest
    (s :: texts, last)
  | .slot column value :: rest =>
    let (texts, last) := fill ns (b.bind column value) rest
    (placeholder ns (b.freshName column) :: texts, last)

end Bindings

namespace Condition

/-- The condition that pieces make up. -/
def ofPieces (ns : String) (pieces : List Piece) : Condition :=
  let (texts, bindings) := Bindings.start.fill ns pieces
  ⟨String.join texts, bindings.parameters, ns⟩

/-- Whether the condition is met by every row, as it says nothing. -/
def isEmpty (c : Condition) : Bool := c.sqlText.isEmpty

/-- The names that the text refers to, in order. -/
def placeholders (c : Condition) : List String :=
  (scan c.sqlText.toList).marks.map fun (m, _) => String.ofList m.name

/-- A text as an SQL literal. -/
def literal (value : String) : List Char :=
  '\'' :: value.toList.flatMap (fun c => if c = '\'' then ['\'', '\''] else [c]) ++ ['\'']

/-- The text with the value of each placeholder in its place. A placeholder without a value stays
as it is. It is for people to read, not for a database. -/
def inlined (c : Condition) : String :=
  String.ofList ((scan c.sqlText.toList).join fun m =>
    match c.parameters.get? (String.ofList m.name) with
    | some value => literal value
    | none => m.render)

end Condition

end SearchFilter
