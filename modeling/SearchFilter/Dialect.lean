/-!
# SQL dialects

The databases a condition can be written for. One has text search vectors; the other makes do
with `LIKE` on plain columns.
-/

namespace SearchFilter

/-- The database a condition is written for. -/
inductive Dialect where
  | postgres
  | h2
  deriving DecidableEq, Repr

namespace Dialect

def all : List Dialect := [postgres, h2]

def name : Dialect → String
  | postgres => "postgres"
  | h2 => "h2"

/-- The dialect with exactly this name. -/
def ofName? (name : String) : Option Dialect := all.find? (·.name == name)

/-- A text that names no dialect, with its ASCII letters in lower case. -/
structure Unknown where
  text : String

def Unknown.message (e : Unknown) : String := s!"unknown dialect '{e.text}'"

/-- The dialect a user means: ASCII letter case does not count, and the longer name of
PostgreSQL is understood too. -/
def read? (text : String) : Except Unknown Dialect :=
  let lowered := text.map Char.toLower
  if lowered = "postgres" ∨ lowered = "postgresql" then .ok postgres
  else if lowered = "h2" then .ok h2
  else .error ⟨lowered⟩

end Dialect

end SearchFilter
