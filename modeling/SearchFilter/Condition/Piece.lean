import SearchFilter.Condition.Test
import SearchFilter.Dialect

/-!
# The text of a filter

A filter is written as a sequence of pieces: text that depends on no value, and slots for the
values. Which placeholder goes into a slot is decided later, from left to right.

Fragments with several tests and all clauses stand in parentheses, so that nothing depends on
which of `NOT`, `AND` and `OR` binds closer.
-/

namespace SearchFilter

/-- A part of the text of a condition. -/
inductive Piece where
  | text (s : String)
  /-- The place of a value that is compared with a column. -/
  | slot (column value : String)
  deriving DecidableEq, Repr

namespace Piece

/-- Sequences of pieces with a separator between them. -/
def separated (separator : String) (first : List Piece) (rest : List (List Piece)) : List Piece :=
  first ++ rest.flatMap fun pieces => text separator :: pieces

/-- Pieces in parentheses. -/
def parenthesized (pieces : List Piece) : List Piece := text "(" :: pieces ++ [text ")"]

end Piece

open Piece

/-- The text of a query in a slot. -/
def TextQuery.slot (column query : String) : List Piece := [.slot column query, .text "::tsquery"]

namespace Comparison

/-- The pieces of a search vector's query: its alternatives, joined in parentheses if there are
two. -/
def queryPieces (column : String) (query : TextQuery) : List Piece :=
  match query.phraseText? with
  | none => TextQuery.slot column query.wholeText
  | some phrase =>
    parenthesized (separated " || " (TextQuery.slot column query.wholeText)
      [TextQuery.slot column phrase])

/-- A comparison as a dialect writes it. Only regular expressions are written differently. -/
def pieces (d : Dialect) : Comparison → List Piece
  | absent column => [text (column ++ " IS NULL")]
  | equals column value => [text (column ++ " = "), slot column value]
  | oneOf column first rest =>
    text (column ++ " IN ") ::
      parenthesized (separated ", " [slot column first] (rest.map fun value => [slot column value]))
  | regex column pattern =>
    match d with
    | .postgres => [text (column ++ " ~ "), slot column pattern]
    | .h2 => [text ("REGEXP_LIKE(" ++ column ++ ", "), slot column pattern, text ")"]
  | like column pattern => [text (column ++ " LIKE "), slot column pattern]
  | likeAnyCase column pattern =>
    [text ("LOWER(" ++ column ++ ") LIKE LOWER("), slot column pattern, text ")"]
  | search column query => text (column ++ " @@ ") :: queryPieces column query

/-- The negation of a comparison, by its own operator where it has one. -/
def negatedPieces (d : Dialect) : Comparison → List Piece
  | absent column => [text (column ++ " IS NOT NULL")]
  | equals column value => [text (column ++ " <> "), slot column value]
  | like column pattern => [text (column ++ " NOT LIKE "), slot column pattern]
  | c => text "NOT " :: parenthesized (c.pieces d)

end Comparison

namespace Test

def pieces (d : Dialect) (t : Test) : List Piece :=
  if t.negated then t.comparison.negatedPieces d else t.comparison.pieces d

end Test

namespace Fragment

def pieces (d : Dialect) (f : Fragment) : List Piece :=
  match f.rest with
  | [] => f.first.pieces d
  | _ :: _ => parenthesized (separated " OR " (f.first.pieces d) (f.rest.map (·.pieces d)))

end Fragment

namespace Filter

/-- The pieces of a filter. A clause stands in parentheses also when one child is all it has. -/
def pieces (d : Dialect) : Filter → List Piece :=
  Formula.fold (·.pieces d) fun op first rest => parenthesized (separated op.joiner first rest)

@[simp] theorem pieces_atom (d : Dialect) (f : Fragment) :
    Filter.pieces d (.atom f) = f.pieces d := rfl

@[simp] theorem pieces_clause (d : Dialect) (op : Connective) (first : Filter)
    (rest : List Filter) :
    Filter.pieces d (.clause op first rest) =
      parenthesized (separated op.joiner (Filter.pieces d first) (rest.map (Filter.pieces d))) := by
  simp [Filter.pieces]

end Filter

end SearchFilter
