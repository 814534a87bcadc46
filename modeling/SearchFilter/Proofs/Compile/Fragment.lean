import SearchFilter.Compile
import SearchFilter.Proofs.Columns

/-!
# Fragments of predicates

All that a predicate can come down to in a dialect. A fragment compares whole values, a set of
them, or texts; each of its tests is about one column behind the predicate's field.

Main statements: `Column.renders_of_fragment` lists the ways in which terms are rendered, and
`Predicate.outcome_eq_dropped_iff` says which predicates are dropped.
-/

namespace SearchFilter

/-- The column that a comparison is about. -/
def Comparison.column : Comparison → String
  | absent column | equals column _ | oneOf column _ _ | regex column _ | like column _
  | likeAnyCase column _ | search column _ => column

namespace Fragment

/-- The tests of a fragment, in order. -/
def tests (f : Fragment) : List Test := f.first :: f.rest

/-- The columns of the tests of a fragment. -/
def columns (f : Fragment) : List String := f.tests.map (·.comparison.column)

@[simp] theorem columns_single (negated : Bool) (c : Comparison) :
    (single negated c).columns = [c.column] := rfl

end Fragment

namespace Column

/-! ## The ways of rendering -/

/-- The fragments for an operand and terms: all of a value, or a set of values, is compared where
that is possible; the rest goes by a regular expression, by a plain pattern, or by the search in
texts. -/
inductive Renders (d : Dialect) (c : Column) :
    Operand → Scalar → List Scalar → Fragment → Prop
  | whole {op : Operand} {s : Scalar} (hop : op = .eq ∨ op = .notEq)
      (h : c.comparesWhole s [] = true) : Renders d c op s [] (c.whole (op == .notEq) s)
  | membership {p : Pattern} {rest : List Scalar} {values : List String}
      (h : c.comparesWhole (.text p) rest = true) (hrest : texts? rest = some values) :
      Renders d c .oneOf (.text p) rest (.single false (.oneOf c.compared p.value values))
  | regex {p : Pattern} {column : String} (h : c.regexColumn? d = some column) :
      Renders d c .regex (.text p) [] (.single false (.regex column p.value))
  | dotted {op : Operand} {first : Scalar} {rest : List Scalar} {column pattern : String}
      (hop : op ≠ .regex) (hwhole : op ≠ .any → c.comparesWhole first rest = false)
      (h : c.dotted? d first rest = some (column, pattern)) :
      Renders d c op first rest (.single (op == .notEq) (.like column pattern))
  | search {op : Operand} {first : Scalar} {rest : List Scalar}
      (hop : op ≠ .regex) (hwhole : op ≠ .any → c.comparesWhole first rest = false)
      (h : c.dotted? d first rest = none) :
      Renders d c op first rest
        ⟨c.searchTest d (op == .notEq) first, rest.map (c.searchTest d (op == .notEq))⟩

variable {d : Dialect} {c : Column} {op : Operand} {first : Scalar} {rest : List Scalar}
  {f : Fragment}

theorem renders_of_search (hop : op ≠ .regex)
    (hwhole : op ≠ .any → c.comparesWhole first rest = false)
    (h : c.search d (op == .notEq) first rest = .ok f) : c.Renders d op first rest f := by
  unfold Column.search at h
  split at h
  · split at h
    · next column pattern hd =>
      cases h
      exact .dotted hop hwhole hd
    · next hd =>
      cases h
      exact .search hop hwhole hd
  · cases h

theorem renders_of_membership (hwhole : c.comparesWhole first rest = true)
    (h : c.membership first rest = .ok f) : c.Renders d .oneOf first rest f := by
  unfold membership at h
  split at h
  · next p values hrest =>
    cases h
    exact .membership hwhole hrest
  · cases h

theorem renders_of_regex (h : c.regex d first = .ok f) : c.Renders d .regex first [] f := by
  unfold Column.regex at h
  split at h
  · cases h
  · cases h
  · next column p hc =>
    cases h
    exact .regex hc

theorem renders_of_fragment (h : c.fragment d op first rest = .ok f) :
    c.Renders d op first rest f := by
  unfold fragment at h
  split at h
  · exact renders_of_search (by simp) (by simp) h
  · split at h
    · next hw => exact renders_of_membership hw h
    · next hw => exact renders_of_search (by simp) (fun _ => by simpa using hw) h
  · split at h
    · next hw =>
      cases h
      exact .whole (.inl rfl) hw
    · next hw => exact renders_of_search (by simp) (fun _ => by simpa using hw) h
  · split at h
    · next hw =>
      cases h
      exact .whole (.inr rfl) hw
    · next hw => exact renders_of_search (by simp) (fun _ => by simpa using hw) h
  · exact renders_of_regex h
  all_goals cases h

/-! ## Columns -/

theorem regexColumn_mem_names {column : String} (h : c.regexColumn? d = some column) :
    column ∈ c.names := by
  cases d with
  | h2 =>
    rw [regexColumn?, Option.some.injEq] at h
    exact h ▸ c.compared_mem_names
  | postgres =>
    rw [regexColumn?] at h
    split at h
    · exact mem_names_of_companion h
    · rw [Option.some.injEq] at h
      exact h ▸ c.matched_mem_names

theorem dotted_mem_names {column pattern : String}
    (h : c.dotted? d first rest = some (column, pattern)) : column ∈ c.names := by
  unfold dotted? at h
  split at h
  · next companion v hcompanion =>
    split at h
    · simp only [Option.some.injEq, Prod.mk.injEq] at h
      exact h.1 ▸ mem_names_of_companion hcompanion
    · cases h
  · cases h

theorem searchTest_mem_names (negated : Bool) (s : Scalar) :
    (c.searchTest d negated s).comparison.column ∈ c.names := by
  cases s with
  | null => exact c.compared_mem_names
  | text p => cases d <;> exact c.matched_mem_names

theorem searchTest_ne_like (negated : Bool) (s : Scalar) (column pattern : String) :
    (c.searchTest d negated s).comparison ≠ .like column pattern := by
  cases s with
  | null => exact nofun
  | text p => cases d <;> exact nofun

theorem Renders.columns_subset (h : c.Renders d op first rest f) : f.columns ⊆ c.names := by
  intro name hname
  cases h with
  | whole hop hw =>
    cases first <;>
    · rw [Column.whole, Fragment.columns_single, List.mem_singleton] at hname
      exact hname ▸ c.compared_mem_names
  | membership hw hrest =>
    rw [Fragment.columns_single, List.mem_singleton] at hname
    exact hname ▸ c.compared_mem_names
  | regex hr =>
    rw [Fragment.columns_single, List.mem_singleton] at hname
    exact hname ▸ regexColumn_mem_names hr
  | dotted hop hw hd =>
    rw [Fragment.columns_single, List.mem_singleton] at hname
    exact hname ▸ dotted_mem_names hd
  | search hop hw hd =>
    simp only [Fragment.columns, Fragment.tests, List.map_cons, List.map_map, List.mem_cons,
      List.mem_map, Function.comp_apply] at hname
    rcases hname with rfl | ⟨s, -, rfl⟩
    · exact searchTest_mem_names _ _
    · exact searchTest_mem_names _ _

end Column

namespace Outcome

variable {o : Outcome}

theorem fragment?_eq_some_iff {f : Fragment} : o.fragment? = some f ↔ o = .rendered f := by
  cases o <;> simp [fragment?]

theorem issue?_eq_some_iff {i : Issue} : o.issue? = some i ↔ o = .rejected i := by
  cases o <;> simp [issue?]

end Outcome

namespace Predicate

variable {d : Dialect} {p : Predicate}

/-- A predicate that restricts nothing: its field has no column in the dialect, or all of its terms
are blank. -/
def Dropped (d : Dialect) (p : Predicate) : Prop :=
  d.column? p.field = none ∨ ∀ s ∈ p.term.members, s.isBlank = true

instance (d : Dialect) : DecidablePred (Dropped d) := fun p => by
  unfold Dropped
  infer_instance

theorem effective_eq_nil_iff : p.effective = [] ↔ ∀ s ∈ p.term.members, s.isBlank = true := by
  unfold effective
  rw [List.filter_eq_nil_iff]
  simp

theorem exists_fragment_of_outcome {f : Fragment} (h : p.outcome d = .rendered f) :
    ∃ c first rest, d.column? p.field = some c ∧ p.effective = first :: rest ∧
      c.fragment d p.operand first rest = .ok f := by
  unfold outcome at h
  split at h
  · next c first rest hc he =>
    split at h
    · next f' hf =>
      cases h
      exact ⟨c, first, rest, hc, he, hf⟩
    · cases h
  · cases h

/-- What is rendered of a predicate: terms that are not blank, in a column of its field. -/
theorem exists_of_outcome_eq_rendered {f : Fragment} (h : p.outcome d = .rendered f) :
    ∃ c first rest, d.column? p.field = some c ∧ p.effective = first :: rest ∧
      c.Renders d p.operand first rest f := by
  obtain ⟨c, first, rest, hc, he, hf⟩ := exists_fragment_of_outcome h
  exact ⟨c, first, rest, hc, he, Column.renders_of_fragment hf⟩

theorem outcome_eq_rendered {c : Column} {first : Scalar} {rest : List Scalar} {f : Fragment}
    (hc : d.column? p.field = some c) (he : p.effective = first :: rest)
    (hf : c.fragment d p.operand first rest = .ok f) : p.outcome d = .rendered f := by
  unfold outcome
  rw [hc, he]
  dsimp only
  rw [hf]

theorem effective_of_text {field : Field} {op : Operand} {pattern : Pattern}
    (h : pattern.isBlank = false) :
    Predicate.effective ⟨field, op, .scalar (.text pattern)⟩ = [.text pattern] := by
  have hkept : (!(Scalar.text pattern).isBlank) = true := congrArg (!·) h
  exact List.filter_cons_of_pos hkept

/-- A single text that is not blank is all that is rendered of its predicate. -/
theorem outcome_of_text {c : Column} {field : Field} {op : Operand} {pattern : Pattern}
    {f : Fragment} (hc : d.column? field = some c) (hblank : pattern.isBlank = false)
    (hf : c.fragment d op (.text pattern) [] = .ok f) :
    Predicate.outcome d ⟨field, op, .scalar (.text pattern)⟩ = .rendered f :=
  outcome_eq_rendered hc (effective_of_text hblank) hf

theorem outcome_eq_dropped_iff : p.outcome d = .dropped ↔ p.Dropped d := by
  unfold outcome Dropped
  rw [← effective_eq_nil_iff]
  cases hc : d.column? p.field with
  | none => simp
  | some c =>
    cases he : p.effective with
    | nil => simp
    | cons first rest =>
      simp only [reduceCtorEq, or_self, iff_false]
      split <;> simp

theorem columns_subset_of_rendered {f : Fragment} (h : p.outcome d = .rendered f) :
    f.columns ⊆ columnNames := by
  obtain ⟨c, first, rest, hc, -, hr⟩ := exists_of_outcome_eq_rendered h
  exact fun name hname => mem_columnNames hc (hr.columns_subset hname)

end Predicate

end SearchFilter
