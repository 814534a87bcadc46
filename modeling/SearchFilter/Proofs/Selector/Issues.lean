import SearchFilter.Proofs.Compile.Rejection
import SearchFilter.Proofs.Selector.PlainRegex
import SearchFilter.Proofs.Selector.Translation

/-!
# What can be wrong with a translated selector

The expression of a selector has issues only in Postgres, and only for regular expressions on lists
that are nothing but search vectors there: one for each such comparison.

Main statement: `Selector.issues_toExpression`.
-/

namespace SearchFilter

/-- The lists that one dialect has no text of, only search vectors. -/
def Field.vectorLists : List Field := [.keywords, .uploaders, .uploaderIps, .tags]

/-- What is wrong with a regular expression on one of these. -/
def Field.regexIssue (f : Field) : Issue := ⟨f, .regex, .unsupported .regex⟩

/-- What a dialect finds wrong with a regular expression that is not blank on a field, if
anything. -/
def Dialect.regexIssue? (d : Dialect) (f : Field) : Option Issue :=
  match d.column? f with
  | some c => if c.regexColumn? d = none then some f.regexIssue else none
  | none => none

theorem filterMap_regexIssue?_h2 (fields : List Field) :
    fields.filterMap (Dialect.regexIssue? .h2) = [] := by
  have htable : ∀ f ∈ Field.all, Dialect.regexIssue? .h2 f = none := by decide
  exact List.filterMap_eq_nil_iff.2 fun f _ => htable f f.mem_all

theorem filterMap_regexIssue?_postgres (fields : List Field) :
    fields.filterMap (Dialect.regexIssue? .postgres) =
      (fields.filter (· ∈ Field.vectorLists)).map Field.regexIssue := by
  have htable : ∀ f ∈ Field.all, Dialect.regexIssue? .postgres f =
      if f ∈ Field.vectorLists then some f.regexIssue else none := by decide
  induction fields with
  | nil => rfl
  | cons f fields ih =>
    by_cases hf : f ∈ Field.vectorLists
    · have hsome : Dialect.regexIssue? .postgres f = some f.regexIssue :=
        (htable f f.mem_all).trans (if_pos hf)
      rw [List.filterMap_cons_some hsome, List.filter_cons_of_pos (by simpa using hf),
        List.map_cons, ih]
    · have hnone : Dialect.regexIssue? .postgres f = none :=
        (htable f f.mem_all).trans (if_neg hf)
      rw [List.filterMap_cons_none hnone, List.filter_cons_of_neg (by simpa using hf), ih]

/-! ## Predicates -/

namespace Predicate

variable {d : Dialect} {field : Field} {op : Operand}

/-- Nothing is wrong with a comparison of a whole value. -/
theorem issue?_of_scalar (hop : op = .eq ∨ op = .notEq) (s : Scalar) :
    (outcome d ⟨field, op, .scalar s⟩).issue? = none := by
  by_contra h
  obtain ⟨problem, c, -, hrejects⟩ := exists_hasProblem_iff.2 h
  cases hs : s.isBlank with
  | true =>
    have hnil : effective ⟨field, op, .scalar s⟩ = [] :=
      effective_eq_nil_iff.2 (List.forall_mem_singleton.2 hs)
    exact hrejects.ne_nil hnil
  | false =>
    have hsingle : effective ⟨field, op, .scalar s⟩ = [s] := by
      apply List.filter_cons_of_pos
      exact congrArg (!·) hs
    rw [hsingle] at hrejects
    exact Column.not_rejects_single hop hrejects

theorem issue?_of_regex {pattern : String} (h : isBlank pattern = false) :
    (outcome d ⟨field, .regex, .exact pattern⟩).issue? = d.regexIssue? field := by
  have heffective : effective ⟨field, .regex, .exact pattern⟩ = [.text (.exact pattern)] :=
    effective_of_text h
  unfold outcome Dialect.regexIssue?
  cases d.column? field with
  | none => rfl
  | some c =>
    rw [heffective]
    simp only [Column.fragment, Column.regex]
    cases c.regexColumn? d <;> rfl

end Predicate

/-- Of all comparisons only those with regular expressions can have issues. -/
theorem Comparator.issues_predicates (d : Dialect) (op : Comparator) (field : Field)
    (value : String) :
    (op.predicates field value).filterMap (fun p => (p.outcome d).issue?) =
      if op = .matching then (d.regexIssue? field).toList else [] := by
  have heq : ∀ s, (Predicate.outcome d ⟨field, .eq, .scalar s⟩).issue? = none :=
    Predicate.issue?_of_scalar (.inl rfl)
  have hnotEq : ∀ s, (Predicate.outcome d ⟨field, .notEq, .scalar s⟩).issue? = none :=
    Predicate.issue?_of_scalar (.inr rfl)
  cases op with
  | equal | startsWith =>
    rw [if_neg (by decide)]
    exact List.filterMap_eq_nil_iff.2 (List.forall_mem_singleton.2 (heq _))
  | notEqual =>
    rw [if_neg (by decide)]
    exact List.filterMap_eq_nil_iff.2
      (List.forall_mem_cons.2 ⟨heq _, List.forall_mem_singleton.2 (hnotEq _)⟩)
  | matching =>
    rw [predicates, List.filterMap_cons, Predicate.issue?_of_regex (isBlank_elementRegex value)]
    cases d.regexIssue? field <;> rfl

/-! ## Selectors -/

namespace Selector

/-- The fields that a selector matches with regular expressions, from left to right: one for each
such comparison. -/
def matchedFields (aliases : Aliases) : Selector → List Field
  | comparison property op _ => if op = .matching then (aliases property).toList else []
  | logical _ left right => left.matchedFields aliases ++ right.matchedFields aliases
  | group inner => inner.matchedFields aliases

variable {aliases : Aliases} {s : Selector} {e : Expression} {d : Dialect}

theorem issues_predicates (d : Dialect) (aliases : Aliases) (s : Selector) :
    (s.predicates aliases).filterMap (fun p => (p.outcome d).issue?) =
      (s.matchedFields aliases).filterMap d.regexIssue? := by
  induction s with
  | comparison property op value =>
    unfold predicates matchedFields
    cases aliases property with
    | none => split <;> rfl
    | some field =>
      simp only [Option.map_some, Option.getD_some, op.issues_predicates]
      split
      · cases h : d.regexIssue? field <;> simp [h]
      · rfl
  | logical op left right ihl ihr =>
    rw [predicates, matchedFields, List.filterMap_append, List.filterMap_append, ihl, ihr]
  | group inner ih => exact ih

/-- The issues of a translated selector, in order. -/
theorem issues_toExpression (h : s.toExpression aliases = .ok e) :
    e.issues d = (s.matchedFields aliases).filterMap d.regexIssue? := by
  rw [Expression.issues, atoms_toExpression h, issues_predicates]

end Selector

end SearchFilter
