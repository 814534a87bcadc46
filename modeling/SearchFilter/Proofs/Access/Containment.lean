import SearchFilter.Proofs.Access.FailClosed
import SearchFilter.Proofs.Compile.Row
import SearchFilter.Proofs.Compile.Slots

/-!
# Access filters stay within their repositories

Every part of an access filter is bound to repositories of its request. For repositories with names
this outlasts compilation: a predicate on the repository is never left out, so that even where a
selector in the filter comes to nothing, only rows of the request's repositories are admitted.

Main statement: `AccessPolicy.repository_of_compose`.
-/

namespace SearchFilter

open Sql

/-! ## Predicates on the repository -/

theorem isColumnName_repository_name : IsColumnName "repository_name" :=
  isColumnName_of_mem (mem_columnNames (column?_repository .h2) (Column.matched_mem_names _))

theorem outcome_inRepository {d : Dialect} {name : String} (h : isBlank name = false) :
    (inRepository name).outcome d = .rendered (.single false (.equals "repository_name" name)) :=
  Predicate.outcome_of_text (column?_repository d) h rfl

theorem exists_texts? {l : List Scalar} {names : List String}
    (h : ∀ s ∈ l, ∃ n ∈ names, s = .text (.exact n)) :
    ∃ values, Column.texts? l = some values ∧ ∀ value ∈ values, value ∈ names := by
  induction l with
  | nil => exact ⟨[], rfl, by simp⟩
  | cons s l ih =>
    rw [List.forall_mem_cons] at h
    obtain ⟨⟨n, hn, rfl⟩, hl⟩ := h
    obtain ⟨values, hvalues, hmem⟩ := ih hl
    refine ⟨n :: values, by rw [Column.texts?, hvalues]; rfl, ?_⟩
    rw [List.forall_mem_cons]
    exact ⟨hn, hmem⟩

theorem exists_of_mem_effective_exactValues {field : Field} {op : Operand} {names : List String}
    {s : Scalar} (h : s ∈ Predicate.effective ⟨field, op, .exactValues names⟩) :
    ∃ n ∈ names, s = .text (.exact n) := by
  have hmem : s ∈ (Term.exactValues names).members := List.mem_of_mem_filter h
  rw [Term.exactValues, Term.members, TermCollection.ofValues, TermCollection.ofScalars,
    mem_firstOccurrences, List.mem_map] at hmem
  obtain ⟨n, hn, rfl⟩ := hmem
  exact ⟨n, hn, rfl⟩

theorem exists_outcome_oneOf {d : Dialect} {names : List String}
    (h : ¬ Predicate.Dropped d ⟨.repository, .oneOf, .exactValues names⟩) :
    ∃ first rest, Predicate.outcome d ⟨.repository, .oneOf, .exactValues names⟩ =
        .rendered (.single false (.oneOf "repository_name" first rest)) ∧
      ∀ value ∈ first :: rest, value ∈ names := by
  have hmem : ∀ s ∈ Predicate.effective ⟨.repository, .oneOf, .exactValues names⟩,
      ∃ n ∈ names, s = .text (.exact n) := fun s => exists_of_mem_effective_exactValues
  unfold Predicate.Dropped at h
  rw [← Predicate.effective_eq_nil_iff] at h
  cases he : Predicate.effective ⟨.repository, .oneOf, .exactValues names⟩ with
  | nil => exact absurd (.inr he) h
  | cons s rest =>
    rw [he, List.forall_mem_cons] at hmem
    obtain ⟨⟨n, hn, rfl⟩, hrest⟩ := hmem
    obtain ⟨values, hvalues, hnames⟩ := exists_texts? hrest
    have hmembership : (Column.plain "repository_name").membership (.text (.exact n)) rest =
        .ok (.single false (.oneOf "repository_name" n values)) := by
      unfold Column.membership
      rw [hvalues]
      rfl
    exact ⟨n, values, Predicate.outcome_eq_rendered (column?_repository d) he hmembership,
      List.forall_mem_cons.2 ⟨hn, hnames⟩⟩

/-! ## Parts of access filters -/

namespace AccessPolicy

variable {policy : AccessPolicy} {request : AccessRequest} {d : Dialect} {v : Predicate → Prop}

/-- A predicate that a component is in a repository of a request. -/
inductive InScope (policy : AccessPolicy) (request : AccessRequest) : Predicate → Prop
  | inRepository {name : String} (h : policy.Resolved request name) :
      InScope policy request (inRepository name)
  | oneOf {names : List String} (h : ∀ n ∈ names, policy.Resolved request n) :
      InScope policy request ⟨.repository, .oneOf, .exactValues names⟩

/-- What is left of what a selector says of a repository still has the repository in it. -/
theorem admits_confine {name : String} (hname : isBlank name = false) {s : NamedSelector}
    {e : Expression} (h : confine policy name s = .ok e) (ha : e.Admits (Predicate.Dropped d) v) :
    v (inRepository name) := by
  unfold confine at h
  split at h
  · cases h
    rw [Formula.admits_flatten_and, List.forall_mem_cons, List.forall_mem_singleton] at ha
    exact Formula.admits_atom.1 ha.2 (not_dropped_inRepository hname)
  · cases h

/-- What is left of an access filter is true only where a predicate on a repository of the request
is. -/
theorem exists_inScope_of_admits {e : Expression} (he : (compose policy request).outcome = .ok e)
    (hnames : ∀ n, policy.Resolved request n → isBlank n = false) :
    ¬ e.Vanishes (Predicate.Dropped d) ∧ (e.Admits (Predicate.Dropped d) v →
      ∃ p, InScope policy request p ∧ ¬ p.Dropped d ∧ v p) := by
  obtain ⟨seen, selected, first, rest, hparts, rfl, hseen, hselected⟩ :=
    exists_scoped_of_compose he
  have hpart : ∀ x ∈ first :: rest, ¬ x.Vanishes (Predicate.Dropped d) ∧
      (x.Admits (Predicate.Dropped d) v → ∃ p, InScope policy request p ∧ ¬ p.Dropped d ∧ v p) := by
    rw [← hparts, List.forall_mem_append]
    constructor
    · -- the part for all repositories that are seen as a whole, if there are any
      intro x hx
      refine ⟨(failsClosed_visiblePart (fun n hn => hnames n (hseen n hn)) hx).1, fun ha => ?_⟩
      cases seen with
      | nil => cases hx
      | cons name others =>
        obtain rfl := List.mem_singleton.1 hx
        have hkept : ¬ Predicate.Dropped d ⟨.repository, .oneOf, .exactValues (name :: others)⟩ :=
          not_dropped_oneOf List.mem_cons_self (hnames name (hseen name List.mem_cons_self))
        exact ⟨_, .oneOf hseen, hkept, Formula.admits_atom.1 ha hkept⟩
    · -- the parts that selectors add, each within its repository
      intro x hx
      obtain ⟨n, s, hn, hconfine⟩ := hselected x hx
      have hblank := hnames n hn
      exact ⟨(failsClosed_of_confine hblank hconfine).1, fun ha => ⟨_, .inRepository hn,
        not_dropped_inRepository hblank, admits_confine hblank hconfine ha⟩⟩
  have hleft : ¬ (first.flatten .or rest).Vanishes (Predicate.Dropped d) := by
    rw [Formula.vanishes_flatten]
    exact fun hall => (hpart first List.mem_cons_self).1 (hall first List.mem_cons_self)
  refine ⟨hleft, fun ha => ?_⟩
  obtain ⟨x, hx, -, hadmits⟩ := (Formula.admits_flatten_or hleft).1 ha
  exact (hpart x hx).2 hadmits

/-! ## Rows -/

/-- A row that meets a predicate on the repository is in one of the repositories that it names. -/
theorem InScope.resolved_of_predicateTruth {p : Predicate} (h : InScope policy request p)
    (hkept : ¬ p.Dropped d) {row : Row} {other : List (Token (Option Slot)) → Truth}
    (hyes : Expression.predicateTruth d (row.truth other) p = .yes) :
    ∃ n, row "repository_name" = some n ∧ policy.Resolved request n := by
  cases h with
  | @inRepository name hname =>
    rw [dropped_inRepository_iff, Bool.not_eq_true] at hkept
    rw [Expression.predicateTruth_of_single (outcome_inRepository hkept),
      Row.truth_equals _ _ isColumnName_repository_name, Row.among_eq_yes_iff] at hyes
    obtain ⟨value, hvalue, hrow⟩ := hyes
    rw [List.mem_singleton] at hvalue
    exact ⟨value, hrow, hvalue ▸ hname⟩
  | @oneOf names hnames =>
    obtain ⟨first, rest, houtcome, hmem⟩ := exists_outcome_oneOf hkept
    rw [Expression.predicateTruth_of_single houtcome,
      Row.truth_oneOf _ _ isColumnName_repository_name, Row.among_eq_yes_iff] at hyes
    obtain ⟨value, hvalue, hrow⟩ := hyes
    exact ⟨value, hrow, hnames value (hmem value hvalue)⟩

/-- Access filters of repositories with names say something in every dialect and namespace, and they
admit only what is in a repository of the request, whatever the selectors in them come to. This is
so of every row that meets the condition, with any truth values of comparisons that are neither
equalities nor memberships. -/
theorem repository_of_compose {e : Expression} {c : Condition} {ns : String}
    (he : (compose policy request).outcome = .ok e) (hc : e.compile d ns = .ok c)
    (hnames : ∀ n, policy.Resolved request n → isBlank n = false) :
    c.sqlText ≠ "" ∧
    (∀ (v : Predicate → Prop) (repository : Option String),
      (∀ n, v (inRepository n) → repository = some n) →
      (∀ names, v ⟨.repository, .oneOf, .exactValues names⟩ → ∃ n ∈ names, repository = some n) →
      e.Admits (Predicate.Dropped d) v →
        ∃ n, repository = some n ∧ policy.Resolved request n) ∧
    (isIdentifier ns.toList = true → ∀ (row : Row) other, c.truth? (row.truth other) = some .yes →
      ∃ n, row "repository_name" = some n ∧ policy.Resolved request n) := by
  refine ⟨fun hempty => ?_, fun v repository hone hmany hadmits => ?_, fun hns row other hmet => ?_⟩
  · have hleft := (exists_inScope_of_admits (d := d) (v := fun _ => True) he hnames).1
    exact hleft ((Expression.sqlText_eq_empty_iff_forall_dropped hc).1 hempty)
  · obtain ⟨p, hp, -, hv⟩ := (exists_inScope_of_admits he hnames).2 hadmits
    cases hp with
    | inRepository hname => exact ⟨_, hone _ hv, hname⟩
    | oneOf hall =>
      obtain ⟨n, hn, hrow⟩ := hmany _ hv
      exact ⟨n, hrow, hall n hn⟩
  · rw [Expression.truth?_eq_yes_iff hns hc] at hmet
    obtain ⟨p, hp, hkept, hyes⟩ := (exists_inScope_of_admits he hnames).2 hmet
    exact hp.resolved_of_predicateTruth hkept hyes

/-- The selector admits another repository, or all that is in the repository once its blank value
is dropped. -/
theorem repository_of_compose_other_or_blank :
    ∃ e c, (compose ⟨Listing.directory ⟨[⟨"r", "maven2"⟩], [], [],
          [⟨"r", none, ⟨"s", .csel, "repository == 'x' || format == ''"⟩⟩], []⟩, .standard,
          fun _ => .ok (.logical .or (.comparison "repository" .equal "x")
            (.comparison "format" .equal ""))⟩
        ⟨.named ["r"], "maven2", false⟩).outcome = .ok e ∧
      Expression.compile .postgres "filterParams" e = .ok c ∧ c.sqlText ≠ "" ∧
      ∀ (row : Row) other, c.truth? (row.truth other) = some .yes →
        row "repository_name" = some "r" := by
  refine ⟨.clause .and (.clause .or (Expression.compare .repository .eq (.exact "x"))
      [Expression.compare .format .eq (.exact "")]) [.atom (inRepository "r")], ?_⟩
  refine exists_and_left.2 ((and_iff_left_of_imp fun he => ?_).2 rfl)
  refine Exists.imp (fun c hc => ⟨hc, ?_⟩)
    ⟨_, Expression.compile_eq_ok_iff.2 ⟨by decide +kernel, rfl⟩⟩
  have hblank : ∀ n ∈ ["r"], isBlank n = false := List.forall_mem_singleton.2 rfl
  obtain ⟨htext, -, hrow⟩ := repository_of_compose he hc fun n hn => hblank n hn.1
  refine ⟨htext, fun row other hmet => ?_⟩
  obtain ⟨n, hn, hresolved, -⟩ := hrow (by decide) row other hmet
  have hname : n ∈ ["r"] := hresolved
  exact hn.trans (congrArg some (List.mem_singleton.1 hname))

end AccessPolicy

end SearchFilter
