import SearchFilter.Proofs.Access.Containment
import SearchFilter.Proofs.Access.Outcome
import SearchFilter.Proofs.Compile.Restriction
import SearchFilter.Proofs.Selector.Issues

/-!
# What can be wrong with an access filter

An access filter has the issues of the selectors in it, and no others: repositories are compared in
ways that are never rejected. So a filter without regular expressions on search vectors compiles in
every dialect.

Main statement: `Expression.failsOnlyFor_of_translation`.
-/

namespace SearchFilter

/-! ## Predicates on the repository -/

/-- A comparison of one field has the issue of its predicate, if that has one. -/
theorem Expression.issues_compare (d : Dialect) (field : Field) (op : Operand) (term : Term) :
    (compare field op term).issues d = (Predicate.outcome d ⟨field, op, term⟩).issue?.toList := by
  rw [issues, compare, Formula.atoms_atom]
  cases h : (Predicate.outcome d ⟨field, op, term⟩).issue? <;> simp [h]

theorem issue?_oneOf_repository (d : Dialect) (names : List String) :
    (Predicate.outcome d ⟨.repository, .oneOf, .exactValues names⟩).issue? = none := by
  by_cases hdropped : Predicate.Dropped d ⟨.repository, .oneOf, .exactValues names⟩
  · rw [Predicate.outcome_eq_dropped_iff.2 hdropped]
    rfl
  · obtain ⟨first, rest, houtcome, -⟩ := exists_outcome_oneOf hdropped
    rw [houtcome]
    rfl

namespace AccessPolicy

/-! ## Translated selectors -/

/-- What is read of a selector, if it can be read. -/
def tree? (policy : AccessPolicy) (s : NamedSelector) : Option Selector :=
  (policy.reader s.text).toOption

/-- What is read of selectors in the language that can be translated, in order. -/
def trees (policy : AccessPolicy) (selectors : List NamedSelector) : List Selector :=
  (selectors.filter (·.language == .csel)).filterMap policy.tree?

/-- What is read of the selectors of a repository; nothing if they cannot be looked up. -/
def treesOf (policy : AccessPolicy) (format name : String) : List Selector :=
  policy.trees ((policy.directory.selectors? [name] [format]).getD [])

/-- The selectors that an access filter is made of, in the order of the repositories: none where
they are left aside or cannot be looked up for all repositories. -/
def translated (policy : AccessPolicy) (request : AccessRequest) : List Selector :=
  if request.unauthorized = true ∨ ∃ n ∈ policy.repositories request,
      policy.directory.selectors? [n] [request.format] = none then []
  else (policy.repositories request).flatMap (policy.treesOf request.format)

/-- The fields that selectors match with regular expressions, one for each such comparison. -/
def matchedFields (policy : AccessPolicy) (selectors : List Selector) : List Field :=
  selectors.flatMap (Selector.matchedFields policy.aliases)

variable {policy : AccessPolicy} {request : AccessRequest} {d : Dialect} {format name : String}
  {names : List String} {s : NamedSelector} {e : Expression} {es : List Expression}

theorem issues_confine (h : confine policy name s = .ok e) :
    ∃ tree, policy.reader s.text = .ok tree ∧
      e.issues d = (tree.matchedFields policy.aliases).filterMap d.regexIssue? := by
  unfold confine at h
  split at h
  · next t ht =>
    cases h
    obtain ⟨tree, hread, htree⟩ := Selector.expressionOf_eq_ok_iff.1 ht
    refine ⟨tree, hread, ?_⟩
    have hrepository : (Expression.compare .repository .eq (.exact name)).issues d = [] := by
      rw [Expression.issues_compare, Term.exact, Predicate.issue?_of_scalar (.inl rfl)]
      rfl
    rw [Expression.issues_flatten, List.flatMap_cons, List.flatMap_singleton, hrepository,
      List.append_nil, Selector.issues_toExpression htree]
  · cases h

theorem issues_confineAll {selectors : List NamedSelector}
    (h : confineAll policy name selectors = .ok es) :
    es.flatMap (Expression.issues d) =
      (policy.matchedFields (policy.trees selectors)).filterMap d.regexIssue? := by
  unfold confineAll at h
  unfold trees
  generalize selectors.filter (·.language == .csel) = translatable at h ⊢
  induction translatable generalizing es with
  | nil =>
    cases h
    rfl
  | cons s rest ih =>
    obtain ⟨e, later, he, hlater, rfl⟩ := mapM_cons_eq_ok_iff.1 h
    obtain ⟨tree, hread, hissues⟩ := issues_confine (d := d) he
    have hsome : policy.tree? s = some tree := by
      rw [tree?, hread]
      rfl
    rw [List.filterMap_cons_some hsome, List.flatMap_cons, ih hlater, hissues, matchedFields,
      matchedFields, List.flatMap_cons, List.filterMap_append]

/-- The issues of what is found. -/
theorem issues_selected? (h : (selected? policy format names).outcome = .ok (some es)) :
    es.flatMap (Expression.issues d) =
      (policy.matchedFields (names.flatMap (policy.treesOf format))).filterMap d.regexIssue? := by
  induction names generalizing es with
  | nil =>
    cases h
    rfl
  | cons name rest ih =>
    rw [outcome_selected?_cons] at h
    cases hselectors : policy.directory.selectors? [name] [format] with
    | none =>
      rw [hselectors] at h
      cases h
    | some selectors =>
      rw [hselectors] at h
      obtain ⟨here, hhere, h⟩ := bind_eq_ok_iff.1 h
      obtain ⟨later, hlater, h⟩ := bind_eq_ok_iff.1 h
      cases later with
      | none => cases h
      | some later =>
        cases h
        have htrees : policy.treesOf format name = policy.trees selectors := by
          rw [treesOf, hselectors, Option.getD_some]
        rw [List.flatMap_append, issues_confineAll hhere, ih hlater, List.flatMap_cons, htrees,
          matchedFields, matchedFields, matchedFields, List.flatMap_append, List.filterMap_append]

/-! ## Access filters -/

theorem issues_found? {found : Option (List Expression)} (h : policy.found? request = .ok found) :
    (found.getD []).flatMap (Expression.issues d) =
      (policy.matchedFields (policy.translated request)).filterMap d.regexIssue? := by
  unfold found? at h
  unfold translated
  split at h
  · next hu =>
    cases h
    rw [if_pos (.inl hu)]
    rfl
  · next hu =>
    have hnone := found_eq_none_iff h
    cases found with
    | none =>
      rw [if_pos (.inr (hnone.1 rfl))]
      rfl
    | some es =>
      rw [if_neg]
      · exact issues_selected? h
      · rintro (hunauthorized | hfails)
        · exact hu hunauthorized
        · cases hnone.2 hfails

theorem issues_visiblePart (names : List String) :
    (visiblePart names).flatMap (Expression.issues d) = [] := by
  cases names with
  | nil => rfl
  | cons name rest =>
    rw [visiblePart, List.flatMap_singleton, Expression.issues_compare, issue?_oneOf_repository]
    · rfl
    · exact List.cons_ne_nil _ _

/-- The issues of an access filter are those of its selectors, in their order. -/
theorem issues_of_compose (h : (compose policy request).outcome = .ok e) :
    e.issues d = (policy.matchedFields (policy.translated request)).filterMap d.regexIssue? := by
  have hknown : policy.unknownNames request = [] := by
    by_contra hunknown
    rw [compose_of_unknownNames hunknown] at h
    cases h
  cases hfound : policy.found? request with
  | error cause =>
    rw [compose_of_error hknown hfound] at h
    cases h
  | ok found =>
    rw [compose_of_found hknown hfound] at h
    have hissues := issues_found? (d := d) hfound
    rw [← List.nil_append ((found.getD []).flatMap _), ← issues_visiblePart (policy.seen request),
      ← List.flatMap_append] at hissues
    rw [← hissues]
    cases hparts : visiblePart (policy.seen request) ++ found.getD [] with
    | nil =>
      rw [hparts] at h
      cases h
    | cons first rest =>
      rw [hparts] at h
      cases h
      exact Expression.issues_flatten .or first rest

end AccessPolicy

/-! ## Dialects -/

/-- An expression that compiles for one dialect, and for the other too unless one of some fields is
a list that is a search vector there: `fields` are those that it matches with regular
expressions. -/
structure Expression.FailsOnlyFor (e : Expression) (fields : List Field) : Prop where
  h2 : ∀ ns, ∃ c, e.compile .h2 ns = .ok c
  postgres : ∀ ns, (∃ invalid, e.compile .postgres ns = .error invalid) ↔
    ∃ f ∈ fields, f ∈ Field.vectorLists
  issues : ∀ ns invalid, e.compile .postgres ns = .error invalid →
    invalid.issues = (fields.filter (· ∈ Field.vectorLists)).map Field.regexIssue

namespace Expression

variable {e : Expression} {fields : List Field}

theorem failsOnlyFor_of_issues (h : ∀ d : Dialect, e.issues d = fields.filterMap d.regexIssue?) :
    e.FailsOnlyFor fields := by
  have hpostgres : e.issues .postgres = (fields.filter (· ∈ Field.vectorLists)).map
      Field.regexIssue := by
    rw [h, filterMap_regexIssue?_postgres]
  refine ⟨fun ns => ?_, fun ns => ?_, fun ns invalid hinvalid => ?_⟩
  · rw [exists_compile_eq_ok_iff, h, filterMap_regexIssue?_h2]
  · have hfails : (∃ invalid, e.compile .postgres ns = .error invalid) ↔
        e.issues .postgres ≠ [] := by
      constructor
      · rintro ⟨invalid, hinvalid⟩
        exact (compile_eq_error_iff.1 hinvalid).1
      · intro hissues
        exact ⟨⟨e.issues .postgres⟩, compile_eq_error_iff.2 ⟨hissues, rfl⟩⟩
    rw [hfails, hpostgres]
    simp
  · rw [(compile_eq_error_iff.1 hinvalid).2, hpostgres]

/-- The expression of a selector compiles for one dialect always, and for the other unless the
selector has a regular expression on a list that is a search vector there. There is then one issue
for each such comparison, in their order. The same holds of access filters and the selectors that
they are made of. -/
theorem failsOnlyFor_of_translation :
    (∀ (aliases : Aliases) (s : Selector) (e : Expression), s.toExpression aliases = .ok e →
      e.FailsOnlyFor (s.matchedFields aliases)) ∧
    ∀ (policy : AccessPolicy) (request : AccessRequest) (e : Expression),
      (policy.compose request).outcome = .ok e →
        e.FailsOnlyFor (policy.matchedFields (policy.translated request)) := by
  constructor
  · intro aliases s e h
    exact failsOnlyFor_of_issues fun d => Selector.issues_toExpression h
  · intro policy request e h
    exact failsOnlyFor_of_issues fun d => AccessPolicy.issues_of_compose h

/-- Two regular expressions, of which one is on a search vector, and the same one in a filter. -/
theorem failsOnlyFor_of_translation_tag :
    (∃ e, Selector.toExpression .standard (.logical .or (.comparison "format" .matching "b")
        (.group (.comparison "tag" .matching "a"))) = .ok e ∧ e.FailsOnlyFor [.format, .tags]) ∧
    ∃ e, (AccessPolicy.compose ⟨Listing.directory ⟨[⟨"a", "raw"⟩], [], [⟨"a", none, [.browse]⟩],
            [⟨"a", none, ⟨"s", .csel, "tag =~ 'a'"⟩⟩], []⟩, .standard,
            fun _ => .ok (.comparison "tag" .matching "a")⟩
          ⟨.named ["a"], "raw", false⟩).outcome = .ok e ∧
      ∃ invalid, e.compile .postgres "p" = .error invalid ∧
        invalid.issues = [⟨.tags, .regex, .unsupported .regex⟩] := by
  constructor
  · refine Exists.imp (fun e he => ⟨he, ?_⟩) ⟨_, rfl⟩
    exact failsOnlyFor_of_translation.1 .standard _ e he
  · refine Exists.imp (fun e he => ⟨he, ?_⟩) ⟨_, rfl⟩
    have hfails := failsOnlyFor_of_translation.2 _ _ e he
    obtain ⟨invalid, hinvalid⟩ := (hfails.postgres "p").2 ⟨.tags, by decide, by decide⟩
    exact ⟨invalid, hinvalid, hfails.issues "p" invalid hinvalid⟩

end Expression

end SearchFilter
