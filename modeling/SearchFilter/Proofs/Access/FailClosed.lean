import SearchFilter.Proofs.Access.Meaning
import SearchFilter.Proofs.Compile.Admission
import SearchFilter.Proofs.Selector.Derivation

/-!
# Access filters that fail closed

A compiled access filter leaves out the predicates that restrict nothing. Where this takes a
conjunct away, rows are admitted that the filter does not grant; the conjunct may come from a
selector, or be the repository that a selector is confined to.

Main statement: `AccessPolicy.failsClosed_of_compose`.
-/

namespace SearchFilter

/-! ## Predicates of access filters -/

theorem column?_repository (d : Dialect) :
    d.column? .repository = some (.plain "repository_name") := by
  cases d <;> rfl

theorem dropped_inRepository_iff {d : Dialect} {name : String} :
    (inRepository name).Dropped d ↔ isBlank name = true := by
  unfold Predicate.Dropped
  rw [inRepository, column?_repository]
  simp [Term.exact, Term.members, Scalar.isBlank, Pattern.isBlank]

theorem not_dropped_inRepository {d : Dialect} {name : String} (h : isBlank name = false) :
    ¬ (inRepository name).Dropped d := by
  rw [dropped_inRepository_iff, h]
  exact Bool.false_ne_true

theorem not_dropped_oneOf {d : Dialect} {names : List String} {name : String} (h : name ∈ names)
    (hname : isBlank name = false) :
    ¬ Predicate.Dropped d ⟨.repository, .oneOf, .exactValues names⟩ := by
  rintro (hcolumn | hblank)
  · rw [column?_repository] at hcolumn
    cases hcolumn
  · have hblank := hblank _ (mem_members_exactValues.2 h)
    rw [Scalar.isBlank, Pattern.isBlank, hname] at hblank
    cases hblank

namespace AccessPolicy

variable {policy : AccessPolicy} {request : AccessRequest} {d : Dialect}

/-- What a selector says of a repository with a name fails closed when the selector does. -/
theorem failsClosed_of_confine {name : String} (hname : isBlank name = false) {s : NamedSelector}
    {e : Expression} (h : confine policy name s = .ok e) :
    ¬ e.Vanishes (Predicate.Dropped d) ∧
      ∃ t, Selector.expressionOf policy.reader policy.aliases s.text = .ok t ∧
        (e.FailsClosed (Predicate.Dropped d) ↔ t.FailsClosed (Predicate.Dropped d)) := by
  have hkept : ¬ (inRepository name).Dropped d := not_dropped_inRepository hname
  have hrepository : (Expression.compare .repository .eq (.exact name)).FailsClosed
      (Predicate.Dropped d) := Formula.failsClosed_atom.2 hkept
  unfold confine at h
  split at h
  · next t ht =>
    cases h
    refine ⟨?_, t, ht, ?_⟩
    · intro hv
      rw [Formula.vanishes_flatten, List.forall_mem_cons, List.forall_mem_singleton] at hv
      exact hkept (hv.2 _ (by simp [Expression.compare, inRepository]))
    · rw [Formula.failsClosed_flatten_and, List.forall_mem_cons, List.forall_mem_singleton]
      exact and_iff_left hrepository
  · cases h

theorem failsClosed_visiblePart {seen : List String} (hseen : ∀ n ∈ seen, isBlank n = false)
    {e : Expression} (he : e ∈ visiblePart seen) :
    ¬ e.Vanishes (Predicate.Dropped d) ∧ e.FailsClosed (Predicate.Dropped d) := by
  cases seen with
  | nil => cases he
  | cons name rest =>
    obtain rfl := List.mem_singleton.1 he
    have hkept : ¬ Predicate.Dropped d ⟨.repository, .oneOf, .exactValues (name :: rest)⟩ :=
      not_dropped_oneOf List.mem_cons_self (hseen name List.mem_cons_self)
    have hclosed : (Expression.compare .repository .oneOf (.exactValues (name :: rest))).FailsClosed
        (Predicate.Dropped d) := Formula.failsClosed_atom.2 hkept
    exact ⟨(Formula.failsClosed_iff.1 hclosed).1, hclosed⟩

/-- An access filter of repositories with names fails closed when the selectors in it do. -/
theorem failsClosed_iff_selectors {e : Expression}
    (h : (compose policy request).outcome = .ok e) (hlookup : policy.LooksUp request)
    (hnames : ∀ n, policy.Resolved request n → isBlank n = false) :
    e.FailsClosed (Predicate.Dropped d) ↔
      (request.unauthorized = false → ∀ n s t, policy.Resolved request n →
        policy.Active request.format n s →
        Selector.expressionOf policy.reader policy.aliases s.text = .ok t →
        t.FailsClosed (Predicate.Dropped d)) := by
  obtain ⟨seen, selected, first, rest, hparts, rfl, hseen, hnone, hsome⟩ :=
    exists_parts_of_compose h hlookup
  have hvisible : ∀ e ∈ visiblePart seen, ¬ e.Vanishes (Predicate.Dropped d) ∧
      e.FailsClosed (Predicate.Dropped d) := fun e he =>
    failsClosed_visiblePart (fun n hn => hnames n ((hseen n).1 hn).1) he
  cases hu : request.unauthorized with
  | true =>
    have hall : ∀ e ∈ first :: rest, ¬ e.Vanishes (Predicate.Dropped d) ∧
        e.FailsClosed (Predicate.Dropped d) := by
      rw [← hparts, hnone hu, List.append_nil]
      exact hvisible
    rw [Formula.failsClosed_flatten_or fun e he => (hall e he).1]
    exact iff_of_true (fun e he => (hall e he).2) (by simp)
  | false =>
    obtain ⟨names, hresolved, hes⟩ := hsome hu
    have hselected : ∀ e ∈ selected, ¬ e.Vanishes (Predicate.Dropped d) := by
      intro e he
      obtain ⟨n, hn, s, -, hconfine⟩ := hes.only e he
      exact (failsClosed_of_confine (hnames n ((hresolved n).1 hn)) hconfine).1
    have hleft : ∀ e ∈ first :: rest, ¬ e.Vanishes (Predicate.Dropped d) := by
      rw [← hparts, List.forall_mem_append]
      exact ⟨fun e he => (hvisible e he).1, hselected⟩
    rw [Formula.failsClosed_flatten_or hleft, ← hparts, List.forall_mem_append,
      and_iff_right fun e he => (hvisible e he).2]
    constructor
    · intro hall _ n s t hn hs ht
      obtain ⟨e, he, hconfine⟩ := hes.each n ((hresolved n).2 hn) s hs
      obtain ⟨-, t', ht', hiff⟩ := failsClosed_of_confine (d := d) (hnames n hn) hconfine
      rw [ht, Except.ok.injEq] at ht'
      exact ht' ▸ hiff.1 (hall e he)
    · intro hall e he
      obtain ⟨n, hn, s, hs, hconfine⟩ := hes.only e he
      have hn := (hresolved n).1 hn
      obtain ⟨-, t, ht, hiff⟩ := failsClosed_of_confine (d := d) (hnames n hn) hconfine
      exact hiff.2 (hall rfl n s t hn hs ht)

/-- The one repository of a request, not visible as a whole, with one selector. -/
theorem compose_of_selector {name : String} {s : NamedSelector} {e : Expression}
    (hresolve : (resolve policy request).outcome = .ok [name])
    (hpermits : policy.directory.permits name request.format seeing = false)
    (hauthorized : request.unauthorized = false)
    (hselectors : policy.directory.selectors? [name] [request.format] = some [s])
    (hcsel : s.language = .csel) (hconfine : confine policy name s = .ok e) :
    (compose policy request).outcome = .ok (e.flatten .or []) := by
  have hall : confineAll policy name [s] = .ok [e] := by
    rw [confineAll, List.filter_cons_of_pos (by simpa using hcsel), List.filter_nil,
      List.mapM_cons, hconfine]
    rfl
  have hask := policy.directory.outcome_askSelectors (ε := AccessError) [name] [request.format]
  rw [hselectors] at hask
  have hselected : (selected? policy request.format [name]).outcome = .ok (some [e]) := by
    rw [selected?, Consultation.outcome_bind_of_ok hask]
    dsimp only
    rw [hall]
    rfl
  have hvisible := outcome_visible policy request.format [name]
  rw [List.filter_cons_of_neg (by simpa using hpermits), List.filter_nil] at hvisible
  rw [compose, Consultation.outcome_bind_of_ok hresolve, Consultation.outcome_bind_of_ok hvisible,
    hauthorized]
  dsimp only
  rw [if_neg Bool.false_ne_true, Consultation.outcome_bind_of_ok hselected]
  rfl

/-- What compiled access filters admit. A row that meets the condition is granted when the dropped
predicates count as true. With every predicate counted it is granted, whatever the truth values of
predicates, just when something is left of the filter and no conjunction in it loses some of its
children and keeps others; for repositories with names, just when this is so of every selector in
it. -/
theorem failsClosed_of_compose {e : Expression} {c : Condition} {ns : String}
    (he : (compose policy request).outcome = .ok e) (hc : e.compile d ns = .ok c) :
    (∀ v, e.Admits (Predicate.Dropped d) v → e.value fun p => p.Dropped d ∨ v p) ∧
    (e.FailsClosed (Predicate.Dropped d) ↔
      (∃ p ∈ e.atoms, ¬ p.Dropped d) ∧ e.KeepsConjuncts (Predicate.Dropped d)) ∧
    (policy.LooksUp request → (∀ n, policy.Resolved request n → isBlank n = false) →
      (e.FailsClosed (Predicate.Dropped d) ↔
        (request.unauthorized = false → ∀ n s t, policy.Resolved request n →
          policy.Active request.format n s →
          Selector.expressionOf policy.reader policy.aliases s.text = .ok t →
          t.FailsClosed (Predicate.Dropped d)))) ∧
    (e.FailsClosed (Predicate.Dropped d) →
      ∀ v, e.Admits (Predicate.Dropped d) v → e.value v) ∧
    (e.FailsClosed (Predicate.Dropped d) → isIdentifier ns.toList = true →
      ∀ w v, (∀ p ∈ e.atoms, ¬ p.Dropped d → ∀ own,
          Expression.compile d ns (.atom p) = .ok own → own.truth? w = some .yes → v p) →
        c.truth? w = some .yes → e.value v) := by
  have hleft : ¬ e.Vanishes (Predicate.Dropped d) ↔ ∃ p ∈ e.atoms, ¬ p.Dropped d := by
    unfold Formula.Vanishes
    simp only [not_forall, exists_prop]
  refine ⟨fun v => Formula.value_of_admits, ?_, failsClosed_iff_selectors he, fun hclosed v => ?_,
    fun hclosed hns w v hv hmet => Expression.value_of_truth? hns hc hclosed hv hmet⟩
  · rw [Formula.failsClosed_iff, hleft]
  · obtain ⟨hkept, hkeeps⟩ := Formula.failsClosed_iff.1 hclosed
    exact hkeeps.value_of_admits hkept

theorem failsClosed_of_compose_raw_in_b :
    (compose (twoRaw [⟨"a", none, [.browse]⟩] "b" [])
        ⟨.named ["a", "b"], "raw", false⟩).outcome =
      .ok (.clause .or (Expression.compare .repository .oneOf (.exactValues ["a"]))
        [.clause .and (Expression.compare .format .eq (.exact "raw"))
          [.atom (inRepository "b")]]) ∧
    ∃ c, Expression.compile .h2 "filterParams"
        (.clause .or (Expression.compare .repository .oneOf (.exactValues ["a"]))
          [.clause .and (Expression.compare .format .eq (.exact "raw"))
            [.atom (inRepository "b")]]) = .ok c ∧
      Formula.FailsClosed (Predicate.Dropped .h2)
        (.clause .or (Expression.compare .repository .oneOf (.exactValues ["a"]))
          [.clause .and (Expression.compare .format .eq (.exact "raw"))
            [.atom (inRepository "b")]]) := by
  refine (and_iff_left_of_imp fun he => ?_).2 rfl
  refine Exists.imp (fun c hc => ⟨hc, ?_⟩)
    ⟨_, Expression.compile_eq_ok_iff.2 ⟨by decide +kernel, rfl⟩⟩
  obtain ⟨-, -, hselectors, -⟩ := failsClosed_of_compose he hc
  refine (hselectors (fun _ _ _ => rfl) ?_).2 ?_
  · rintro n ⟨hn, -⟩
    have hnames : n ∈ ["a", "b"] := hn
    rcases List.mem_pair.1 hnames with rfl | rfl <;> rfl
  · rintro - n s t - - ht
    cases ht
    exact Formula.failsClosed_atom.2 (by decide +kernel)

/-- A selector with a blank value is dropped, and all of its repository is admitted. -/
theorem admits_of_blank_selector :
    ∃ e, (compose ⟨Listing.directory ⟨[⟨"r", "maven2"⟩], [], [],
          [⟨"r", none, ⟨"s", .csel, "format == \"\""⟩⟩], []⟩, .standard, Selector.read⟩
        ⟨.named ["r"], "maven2", false⟩).outcome = .ok e ∧
      (∃ c, e.compile .postgres "filterParams" = .ok c) ∧
      e.surviving .postgres = some (.atom (inRepository "r")) ∧
      e.Admits (Predicate.Dropped .postgres) (fun p => p.field = .repository) ∧
      ¬ e.value fun p => p.field = .repository := by
  have hread : Selector.read "format == \"\"" = .ok (.comparison "format" .equal "") :=
    Selector.read_of_readComparison (by rfl) (by decide) (by decide) (by decide +kernel)
  have hexpression : Selector.expressionOf Selector.read .standard "format == \"\"" =
      .ok (Expression.compare .format .eq (.exact "")) :=
    Selector.expressionOf_eq_ok_iff.2 ⟨_, hread, rfl⟩
  refine ⟨(Formula.clause .and (Expression.compare .format .eq (.exact ""))
      [.atom (inRepository "r")]).flatten .or [], ?_,
    ⟨_, Expression.compile_eq_ok_iff.2 ⟨by decide +kernel, rfl⟩⟩, by decide +kernel,
    fun s hs => ?_, fun hvalue => ?_⟩
  · refine compose_of_selector rfl rfl rfl rfl rfl ?_
    rw [confine, hexpression]
    rfl
  · have hleft : Formula.sift (fun p => ¬ Predicate.Dropped .postgres p)
        (Formula.clause .and (Expression.compare .format .eq (.exact ""))
          [.atom (inRepository "r")]) = some (.atom (inRepository "r")) := by decide +kernel
    rw [Formula.flatten] at hs
    obtain rfl := Option.some.inj (hleft.symm.trans hs)
    rfl
  · have hformat := Formula.value_and.1 hvalue _ List.mem_cons_self
    cases hformat

end AccessPolicy

end SearchFilter
