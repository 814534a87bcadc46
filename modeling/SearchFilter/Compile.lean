import SearchFilter.Column
import SearchFilter.Compile.Issue
import SearchFilter.Condition
import SearchFilter.Expression
import SearchFilter.Pattern

/-!
# From expressions to conditions

In a given dialect a predicate is dropped, rejected or rendered, whatever stands around it. It is
dropped when it restricts nothing: the dialect has no column for its field, or all its terms are
blank. Blank terms next to others do not count.

A value is compared as a whole where the column has no text search, or holds a single value that
the term gives exactly; all else is a search in the text of the column.

The predicates of an expression are rendered one by one, those that restrict nothing are left
out, and what remains is written as a condition. An expression has a condition unless one of its
predicates is rejected.
-/

namespace SearchFilter

/-! ## Predicates -/

/-- What becomes of a predicate. -/
inductive Outcome where
  | dropped
  | rejected (issue : Issue)
  | rendered (fragment : Fragment)
  deriving DecidableEq, Repr

namespace Outcome

def issue? : Outcome → Option Issue
  | rejected i => some i
  | dropped | rendered _ => none

def fragment? : Outcome → Option Fragment
  | rendered f => some f
  | dropped | rejected _ => none

end Outcome

namespace Column

/-- Whether `EQ`, `NOT_EQ` and `IN` compare the whole value of the column with the terms. -/
def comparesWhole (c : Column) (first : Scalar) (rest : List Scalar) : Bool :=
  !c.fulltext || (!c.tokenized && rest.isEmpty && first.kind == .exact)

/-- The column's whole value compared with one term. -/
def whole (c : Column) (negated : Bool) : Scalar → Fragment
  | .null => .single negated (.absent c.compared)
  | .text p => .single negated (.equals c.compared p.value)

/-- The texts of scalars, if none is the absent value. -/
def texts? : List Scalar → Option (List String)
  | [] => some []
  | .null :: _ => none
  | .text p :: rest => (texts? rest).map (p.value :: ·)

/-- The column's whole value compared with a set of terms. -/
def membership (c : Column) (first : Scalar) (rest : List Scalar) : Except Problem Fragment :=
  match first, texts? rest with
  | .text p, some values => .ok (.single false (.oneOf c.compared p.value values))
  | _, _ => .error .nullTerm

/-- The column that a regular expression is matched with. A search vector is no text. -/
def regexColumn? (d : Dialect) (c : Column) : Option String :=
  match d with
  | .postgres => if c.fulltext then c.companion? else some c.matched
  | .h2 => some c.compared

/-- The column's text matched with a regular expression. -/
def regex (d : Dialect) (c : Column) (s : Scalar) : Except Problem Fragment :=
  match c.regexColumn? d, s with
  | none, _ => .error (.unsupported .regex)
  | some _, .null => .error .nullTerm
  | some column, .text p => .ok (.single false (.regex column p.value))

/-- The test for one term in the text of the column. -/
def searchTest (d : Dialect) (c : Column) (negated : Bool) : Scalar → Test
  | .null => ⟨negated, .absent c.compared⟩
  | .text p =>
    match d with
    | .postgres => ⟨negated, .search c.matched p.query⟩
    | .h2 => ⟨negated, .likeAnyCase c.matched p.containing⟩

/-- The plain column and the LIKE pattern that stand in for a search vector: a single wildcard
with two dots or more, such as the start of a version, is not well served by tokens. -/
def dotted? (d : Dialect) (c : Column) (first : Scalar) (rest : List Scalar) :
    Option (String × String) :=
  match d, c.companion?, first, rest with
  | .postgres, some column, .text (.wildcard v _), [] =>
    if !c.tokenized && decide (2 ≤ v.toList.count '.') then some (column, prefixPattern v) else none
  | _, _, _, _ => none

/-- The terms searched for in the text of the column. -/
def search (d : Dialect) (c : Column) (negated : Bool) (first : Scalar) (rest : List Scalar) :
    Except Problem Fragment :=
  if c.fulltext then
    match c.dotted? d first rest with
    | some (column, pattern) => .ok (.single negated (.like column pattern))
    | none => .ok ⟨c.searchTest d negated first, rest.map (c.searchTest d negated)⟩
  else .error (.unsupported d.textStrategy)

/-- The fragment for an operand and the terms of a predicate, or the problem with it. -/
def fragment (d : Dialect) (c : Column) (operand : Operand) (first : Scalar)
    (rest : List Scalar) : Except Problem Fragment :=
  match operand, rest with
  | .any, rest => c.search d false first rest
  | .oneOf, rest =>
    if c.comparesWhole first rest then c.membership first rest else c.search d false first rest
  | .eq, [] =>
    if c.comparesWhole first [] then .ok (c.whole false first) else c.search d false first []
  | .notEq, [] =>
    if c.comparesWhole first [] then .ok (c.whole true first) else c.search d true first []
  | .regex, [] => c.regex d first
  | .eq, _ :: _ | .notEq, _ :: _ | .regex, _ :: _ => .error (.arity (rest.length + 1))

end Column

namespace Predicate

/-- The terms of a predicate that restrict something. -/
def effective (p : Predicate) : List Scalar := p.term.members.filter fun s => !s.isBlank

/-- What becomes of a predicate in a dialect. -/
def outcome (d : Dialect) (p : Predicate) : Outcome :=
  match d.column? p.field, p.effective with
  | some column, first :: rest =>
    match column.fragment d p.operand first rest with
    | .ok fragment => .rendered fragment
    | .error problem => .rejected ⟨p.field, p.operand, problem⟩
  | _, _ => .dropped

end Predicate

/-! ## Expressions -/

namespace Expression

/-- What is wrong with an expression, from left to right. -/
def issues (d : Dialect) (e : Expression) : List Issue :=
  e.atoms.filterMap fun p => (p.outcome d).issue?

/-- What an expression comes down to, if anything: the formula of the fragments of its
predicates. -/
def filter? (d : Dialect) (e : Expression) : Option Filter :=
  e.prune fun p => (p.outcome d).fragment?

/-- The pieces of an expression's condition. -/
def pieces (d : Dialect) (e : Expression) : List Piece :=
  match e.filter? d with
  | none => []
  | some f => f.pieces d

/-- The condition of an expression in a dialect, with its placeholders in a namespace. -/
def compile (d : Dialect) (ns : String) (e : Expression) : Except InvalidExpression Condition :=
  match e.issues d with
  | [] => .ok (.ofPieces ns (e.pieces d))
  | i :: rest => .error ⟨i :: rest⟩

end Expression

end SearchFilter
