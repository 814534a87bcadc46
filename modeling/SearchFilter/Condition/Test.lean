import SearchFilter.Formula
import SearchFilter.Pattern

/-!
# Tests of rows

A predicate comes down to tests of single columns. A test is a comparison or its negation; the
values that it compares with stand in it as they are, not yet as parameters.
-/

namespace SearchFilter

/-- A comparison of one column. -/
inductive Comparison where
  /-- The column has no value. -/
  | absent (column : String)
  /-- The column has this value. -/
  | equals (column value : String)
  /-- The column has one of these values. -/
  | oneOf (column first : String) (rest : List String)
  /-- A regular expression is found in the column. -/
  | regex (column pattern : String)
  /-- The column is like a pattern. -/
  | like (column pattern : String)
  /-- The column is like a pattern when letter case does not count. -/
  | likeAnyCase (column pattern : String)
  /-- A search vector answers a query. -/
  | search (column : String) (query : TextQuery)
  deriving DecidableEq, Repr

/-- A comparison, or the negation of one. -/
structure Test where
  negated : Bool
  comparison : Comparison
  deriving DecidableEq, Repr

/-- One test or several, of which one has to succeed. -/
structure Fragment where
  first : Test
  rest : List Test
  deriving DecidableEq, Repr

namespace Fragment

/-- The fragment of a single test. -/
def single (negated : Bool) (comparison : Comparison) : Fragment := ⟨⟨negated, comparison⟩, []⟩

end Fragment

/-- What a search expression comes down to: a formula over fragments. -/
abbrev Filter := Formula Fragment

end SearchFilter
