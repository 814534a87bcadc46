import SearchFilter.Proofs.Access.Parts

/-!
# What access filters let through

An access filter lets a component through when the user may see all of its repository, or when a
selector that is active for its repository holds of it. Each selector counts for its own repository
alone, and what the user may see of a repository does not depend on other repositories.

Main statement: `AccessPolicy.value_of_compose`.
-/

namespace SearchFilter

/-- The predicate that a component is in a repository. -/
def inRepository (name : String) : Predicate := ⟨.repository, .eq, .exact name⟩

theorem mem_members_exactValues {value : String} {values : List String} :
    Scalar.text (.exact value) ∈ (Term.exactValues values).members ↔ value ∈ values := by
  rw [Term.exactValues, Term.members, TermCollection.ofValues, TermCollection.ofScalars,
    mem_firstOccurrences, List.mem_map]
  simp

namespace AccessPolicy

variable {policy : AccessPolicy} {request : AccessRequest} {v : Predicate → Prop}

theorem value_visiblePart {names : List String}
    (hv : ∀ names, v ⟨.repository, .oneOf, .exactValues names⟩ ↔ ∃ n ∈ names, v (inRepository n)) :
    (∃ e ∈ visiblePart names, e.value v) ↔ ∃ n ∈ names, v (inRepository n) := by
  cases names with
  | nil => simp [visiblePart]
  | cons name rest =>
    rw [← hv]
    simp [visiblePart, Expression.compare]

/-- What a selector says is confined to its repository. -/
theorem value_of_confine {name : String} {s : NamedSelector} {e : Expression}
    (h : confine policy name s = .ok e) :
    e.value v ↔ v (inRepository name) ∧
      ∃ tree, policy.reader s.text = .ok tree ∧ tree.Holds v policy.aliases := by
  unfold confine at h
  split at h
  · next e' he' =>
    cases h
    obtain ⟨tree, hread, htree⟩ := Selector.expressionOf_eq_ok_iff.1 he'
    rw [Formula.value_flatten_and, Selector.value_toExpression htree, and_comm]
    refine and_congr_right fun _ => ?_
    constructor
    · intro hholds
      exact ⟨tree, hread, hholds⟩
    · rintro ⟨tree', hread', hholds⟩
      rw [hread, Except.ok.injEq] at hread'
      exact hread' ▸ hholds
  · cases h

theorem Confines.value_iff {format : String} {names : List String} {es : List Expression}
    (h : Confines policy format names es) :
    (∃ e ∈ es, e.value v) ↔ ∃ n ∈ names, v (inRepository n) ∧ ∃ s, policy.Active format n s ∧
      ∃ tree, policy.reader s.text = .ok tree ∧ tree.Holds v policy.aliases := by
  constructor
  · rintro ⟨e, he, hvalue⟩
    obtain ⟨n, hn, s, hs, heq⟩ := h.only e he
    obtain ⟨hrepository, htree⟩ := (value_of_confine heq).1 hvalue
    exact ⟨n, hn, hrepository, s, hs, htree⟩
  · rintro ⟨n, hn, hrepository, s, hs, htree⟩
    obtain ⟨e, he, heq⟩ := h.each n hn s hs
    exact ⟨e, he, (value_of_confine heq).2 ⟨hrepository, htree⟩⟩

/-- What an access filter lets through: all of the repositories that may be browsed or read, and of
every repository what its selectors say, if the request asks for authorization. -/
theorem value_of_compose {e : Expression} (h : (compose policy request).outcome = .ok e)
    (hlookup : policy.LooksUp request)
    (hv : ∀ names, v ⟨.repository, .oneOf, .exactValues names⟩ ↔ ∃ n ∈ names, v (inRepository n)) :
    e.value v ↔
      (∃ n, policy.Resolved request n ∧
        policy.directory.permits n request.format [.browse, .read] = true ∧ v (inRepository n)) ∨
      (request.unauthorized = false ∧ ∃ n, policy.Resolved request n ∧ v (inRepository n) ∧
        ∃ s, policy.Active request.format n s ∧
          ∃ tree, policy.reader s.text = .ok tree ∧ tree.Holds v policy.aliases) := by
  obtain ⟨seen, selected, first, rest, hparts, rfl, hseen, hnone, hsome⟩ :=
    exists_parts_of_compose h hlookup
  have hvisible : (∃ e ∈ visiblePart seen, e.value v) ↔ ∃ n, policy.Resolved request n ∧
      policy.directory.permits n request.format [.browse, .read] = true ∧ v (inRepository n) := by
    rw [value_visiblePart hv]
    simp only [hseen, and_assoc]
  rw [Formula.value_flatten_or, ← hparts, ← hvisible]
  simp only [List.mem_append, or_and_right, exists_or]
  refine or_congr_right ?_
  cases hu : request.unauthorized with
  | true =>
    rw [hnone hu]
    simp
  | false =>
    obtain ⟨names, hnames, hes⟩ := hsome hu
    rw [hes.value_iff]
    simp only [hnames, true_and]

theorem value_of_compose_raw_in_b :
    ∃ e, (compose (twoRaw [⟨"a", none, [.browse]⟩] "b" [])
        ⟨.named ["a", "b"], "raw", false⟩).outcome = .ok e ∧
      e.value fun p => Scalar.text (.exact (if p.field = .repository then "b" else "raw")) ∈
        p.term.members := by
  refine Exists.imp (fun e he => ⟨he, ?_⟩) ⟨_, rfl⟩
  refine (value_of_compose he (fun _ _ _ => rfl) fun names => ?_).2 (.inr ?_)
  · simp only [if_true, mem_members_exactValues, inRepository]
    simp [Term.exact, Term.members]
  · refine ⟨rfl, "b", ⟨by decide, rfl⟩, by decide, ⟨"s", .csel, "format == 'raw'"⟩,
      ⟨rfl, _, rfl, by decide⟩, _, rfl, .format, by decide, List.mem_singleton.2 rfl⟩

end AccessPolicy

end SearchFilter
