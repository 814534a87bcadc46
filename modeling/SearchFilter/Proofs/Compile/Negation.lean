import SearchFilter.Proofs.Compile.Record

/-!
# Negations

Where there is an operator for the negation of a comparison, a negated test is written with it, and
elsewhere with `NOT`. For a row it is all the same. Whether a column has a value is known of every
row; of all other comparisons a database may take whatever it does to hold of a value, but nothing
is known of them without one.

Main statements: `Test.value_tree_negated`, and `Expression.predicateTruth_of_negated`, a predicate
that is rendered as a negated test has the negation of what the test has.
-/

namespace SearchFilter

open Sql

/-- What a database takes for a comparison that holds of a value, for the comparison as it is
written, with the values that it is written for. -/
abbrev ComparisonEngine := List (Token (Option Slot)) → String → Bool

namespace Sql

variable {α : Type}

/-- The column that a comparison is about. It is the first word of the comparison, or it stands in
parentheses after the name of a function. -/
def subject : List (Token α) → String
  | .word _ :: .opening :: .word column :: _ => String.ofList column
  | .word column :: _ => String.ofList column
  | _ => ""

/-- The comparison that another one is the negation of, by its operator. -/
def affirmed? : List (Token α) → Option (List (Token α))
  | .word column :: .sign '<' :: .sign '>' :: rest => some (.word column :: .sign '=' :: rest)
  | .word column :: .word ['I', 'S'] :: .word ['N', 'O', 'T'] :: rest =>
    some (.word column :: .word ['I', 'S'] :: rest)
  | .word column :: .word ['N', 'O', 'T'] :: rest => some (.word column :: rest)
  | _ => none

end Sql

/-! ## Comparisons in a row -/

namespace Row

/-- Whether a column has no value. -/
def lacks (row : Row) (column : String) : Truth := if row column = none then .yes else .no

/-- What is told of a comparison that is no negation. -/
def told (row : Row) (engine : ComparisonEngine) : List (Token (Option Slot)) → Truth
  | [.word column, .word ['I', 'S'], .word ['N', 'U', 'L', 'L']] => row.lacks (String.ofList column)
  | a => .ofTest (engine a) (row (subject a))

/-- What is told of a comparison, which may be the negation of another one. -/
def verdict (row : Row) (engine : ComparisonEngine) (a : List (Token (Option Slot))) : Truth :=
  match affirmed? a with
  | some b => (row.told engine b).neg
  | none => row.told engine a

variable {d : Dialect} {c : Comparison} (row : Row) (engine : ComparisonEngine) {column : String}

theorem verdict_absent (h : IsColumnName column) :
    row.verdict engine (((Comparison.absent column).tokens d).map (Token.map some)) =
      row.lacks column := by
  rw [Comparison.tokens_absent h]
  exact congrArg row.lacks String.ofList_toList

/-- What a comparison takes of the value in its column is up to the database. -/
theorem verdict_tokens (h : IsColumnName c.column) (hc : ∀ column, c ≠ .absent column) :
    row.verdict engine ((c.tokens d).map (Token.map some)) =
      .ofTest (engine ((c.tokens d).map (Token.map some))) (row c.column) := by
  have hcolumn : ∀ {column : String} {test : String → Bool},
      Truth.ofTest test (row (String.ofList column.toList)) = .ofTest test (row column) :=
    congrArg (fun column => Truth.ofTest _ (row column)) String.ofList_toList
  cases c with
  | absent column => exact absurd rfl (hc column)
  | equals column value =>
    have hcol : IsColumnName column := h
    rw [Comparison.tokens_equals hcol]
    exact hcolumn
  | oneOf column first rest =>
    have hcol : IsColumnName column := h
    rw [Comparison.tokens_oneOf hcol]
    exact hcolumn
  | regex column pattern =>
    have hcol : IsColumnName column := h
    cases d with
    | postgres =>
      rw [Comparison.tokens_regex_postgres hcol]
      exact hcolumn
    | h2 =>
      rw [Comparison.tokens_regex_h2 hcol]
      exact hcolumn
  | like column pattern =>
    have hcol : IsColumnName column := h
    rw [Comparison.tokens_like hcol]
    exact hcolumn
  | likeAnyCase column pattern =>
    have hcol : IsColumnName column := h
    rw [Comparison.tokens_likeAnyCase hcol]
    exact hcolumn
  | search column query =>
    have hcol : IsColumnName column := h
    rw [Comparison.tokens_search hcol]
    exact hcolumn

end Row

/-! ## Negated tests -/

/-- The truth value of a negated test is the negation of that of its comparison. -/
theorem Test.value_tree_negated {d : Dialect} {c : Comparison} (h : IsColumnName c.column)
    (row : Row) (engine : ComparisonEngine) :
    (TokenTree.map some (tree d ⟨true, c⟩)).value (row.verdict engine) =
      (row.verdict engine ((c.tokens d).map (Token.map some))).neg := by
  have hread : ∀ {ts ts' : List (Token Slot)}, ts = ts' →
      row.verdict engine (ts.map (Token.map some)) =
        row.verdict engine (ts'.map (Token.map some)) :=
    congrArg fun ts : List (Token Slot) => row.verdict engine (ts.map (Token.map some))
  -- Three comparisons are negated by their operators; the others have `NOT` before them.
  cases c with
  | absent column =>
    have hcol : IsColumnName column := h
    rw [Comparison.tokens_absent hcol]
    exact hread (Comparison.allTokens_negated_absent (d := d) hcol)
  | equals column value =>
    have hcol : IsColumnName column := h
    rw [Comparison.tokens_equals hcol]
    exact hread (Comparison.allTokens_negated_equals (d := d) hcol value)
  | like column pattern =>
    have hcol : IsColumnName column := h
    rw [Comparison.tokens_like hcol]
    exact hread (Comparison.allTokens_negated_like (d := d) hcol pattern)
  | oneOf | regex | likeAnyCase | search => rfl

/-! ## Predicates -/

namespace Expression

variable {d : Dialect} {p : Predicate} {c : Comparison}

/-- The truth value of a predicate that is rendered as one negated test. -/
theorem predicateTruth_of_negated (h : p.outcome d = .rendered (.single true c)) (row : Row)
    (engine : ComparisonEngine) :
    predicateTruth d (row.verdict engine) p =
      (row.verdict engine ((c.tokens d).map (Token.map some))).neg := by
  have hcolumn : IsColumnName c.column :=
    isColumnName_of_mem (Predicate.columns_subset_of_rendered h List.mem_cons_self)
  have htree : p.tree d = Test.tree d ⟨true, c⟩ := by
    rw [Predicate.tree, h]
    rfl
  rw [predicateTruth, htree, Test.value_tree_negated hcolumn]

end Expression

end SearchFilter
