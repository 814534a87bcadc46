import SearchFilter.Access.Filter
import SearchFilter.Proofs.Access.Consultation
import SearchFilter.Proofs.Except
import SearchFilter.Proofs.Selector.Meaning

/-!
# The parts of access filters

An access filter is a disjunction. One part names the repositories that the user may see all of;
each of the others is what one selector says, confined to one repository.

Main statement: `AccessPolicy.exists_parts_of_compose`.
-/

namespace SearchFilter

open Consultation

namespace AccessPolicy

variable (policy : AccessPolicy)

/-! ## What a request is about -/

/-- A repository that a request is about: it is asked for, or listed for the format of the request,
and it is known. -/
def Resolved (request : AccessRequest) (name : String) : Prop :=
  (match request.scope with
    | .named names => name ∈ names
    | .ofFormat => name ∈ policy.directory.namesOfFormat request.format) ∧
  (policy.directory.repository? name).isSome = true

/-- A selector that is active for a repository, in the language that can be translated. -/
def Active (format name : String) (s : NamedSelector) : Prop :=
  s.language = .csel ∧
    ∃ selectors, policy.directory.selectors? [name] [format] = some selectors ∧ s ∈ selectors

/-- Every lookup of selectors that a request leads to succeeds. -/
def LooksUp (request : AccessRequest) : Prop :=
  ∀ repositories formats, .selectors repositories formats ∈ (compose policy request).questions →
    (policy.directory.selectors? repositories formats).isSome = true

variable {policy} {request : AccessRequest} {format : String} {names : List String}

/-! ## Repositories -/

theorem outcome_partKnown (policy : AccessPolicy) (names : List String) :
    (partKnown policy names).outcome =
      .ok (names.filter fun n => (policy.directory.repository? n).isSome,
        names.filter fun n => (policy.directory.repository? n).isNone) := by
  induction names with
  | nil => rfl
  | cons name rest ih =>
    rw [partKnown, outcome_bind_of_ok (Directory.outcome_askRepository _ name),
      outcome_bind_of_ok ih]
    cases h : policy.directory.repository? name with
    | none => simp [h]
    | some r => simp [h]

theorem mem_of_resolve (h : (resolve policy request).outcome = .ok names) {n : String} :
    n ∈ names ↔ policy.Resolved request n := by
  unfold Resolved
  unfold resolve at h
  cases hscope : request.scope with
  | named asked =>
    rw [hscope] at h
    obtain ⟨parts, hparts, h⟩ := outcome_bind_eq_ok_iff.1 h
    rw [outcome_partKnown, Except.ok.injEq] at hparts
    subst hparts
    dsimp only at h
    split at h
    · cases h
      simp
    · cases h
  | ofFormat =>
    rw [hscope] at h
    obtain ⟨listed, hlisted, h⟩ := outcome_bind_eq_ok_iff.1 h
    cases hlisted
    obtain ⟨parts, hparts, h⟩ := outcome_bind_eq_ok_iff.1 h
    rw [outcome_partKnown, Except.ok.injEq] at hparts
    subst hparts
    cases h
    simp

theorem outcome_visible (policy : AccessPolicy) (format : String) (names : List String) :
    (visible policy format names).outcome =
      .ok (names.filter fun n => policy.directory.permits n format seeing) := by
  induction names with
  | nil => rfl
  | cons name rest ih =>
    rw [visible, outcome_bind_of_ok (Directory.outcome_askPermission _ name format seeing),
      outcome_bind_of_ok ih]
    by_cases h : policy.directory.permits name format seeing = true
    · simp [h]
    · simp [h]

/-! ## Selectors -/

/-- The selectors that give expressions, and the expressions that they give. -/
structure Confines (policy : AccessPolicy) (format : String) (names : List String)
    (es : List Expression) : Prop where
  each : ∀ n ∈ names, ∀ s, policy.Active format n s → ∃ e ∈ es, confine policy n s = .ok e
  only : ∀ e ∈ es, ∃ n ∈ names, ∃ s, policy.Active format n s ∧ confine policy n s = .ok e

theorem confines_of_confineAll {name : String} {selectors : List NamedSelector}
    {es : List Expression} (hs : policy.directory.selectors? [name] [format] = some selectors)
    (h : confineAll policy name selectors = .ok es) : Confines policy format [name] es := by
  obtain ⟨hall, hmem⟩ := exists_of_mapM_eq_ok h
  constructor
  · rw [List.forall_mem_singleton]
    rintro s ⟨hcsel, found, hfound, hs'⟩
    rw [hs, Option.some.injEq] at hfound
    subst hfound
    exact hall s (List.mem_filter.2 ⟨hs', by simpa using hcsel⟩)
  · intro e he
    obtain ⟨s, hsel, heq⟩ := hmem e he
    rw [List.mem_filter] at hsel
    exact ⟨name, List.mem_cons_self, s, ⟨by simpa using hsel.2, selectors, hs, hsel.1⟩, heq⟩

theorem Confines.append {name : String} {here later : List Expression}
    (h : Confines policy format [name] here) (h' : Confines policy format names later) :
    Confines policy format (name :: names) (here ++ later) := by
  constructor
  · rw [List.forall_mem_cons]
    constructor
    · intro s hs
      obtain ⟨e, he, heq⟩ := h.each name List.mem_cons_self s hs
      exact ⟨e, List.mem_append_left _ he, heq⟩
    · intro n hn s hs
      obtain ⟨e, he, heq⟩ := h'.each n hn s hs
      exact ⟨e, List.mem_append_right _ he, heq⟩
  · intro e he
    rcases List.mem_append.1 he with he | he
    · obtain ⟨n, hn, hs⟩ := h.only e he
      rw [List.mem_singleton] at hn
      exact ⟨n, hn ▸ List.mem_cons_self, hs⟩
    · obtain ⟨n, hn, hs⟩ := h'.only e he
      exact ⟨n, List.mem_cons_of_mem _ hn, hs⟩

/-- What is found are the expressions of the selectors of all repositories. -/
theorem confines_of_selected? {es : List Expression}
    (h : (selected? policy format names).outcome = .ok (some es)) :
    Confines policy format names es := by
  induction names generalizing es with
  | nil =>
    cases h
    exact ⟨by simp, by simp⟩
  | cons name rest ih =>
    have hask := policy.directory.outcome_askSelectors (ε := AccessError) [name] [format]
    unfold selected? at h
    rw [outcome_bind_of_ok hask] at h
    cases hselectors : policy.directory.selectors? [name] [format] with
    | none =>
      rw [hselectors] at h
      cases h
    | some selectors =>
      rw [hselectors] at h
      obtain ⟨here, hhere, h⟩ := outcome_bind_eq_ok_iff.1 h
      obtain ⟨later, hlater, h⟩ := outcome_bind_eq_ok_iff.1 h
      cases later with
      | none => cases h
      | some later =>
        cases h
        exact (confines_of_confineAll hselectors hhere).append (ih hlater)

/-- When every lookup succeeds, the selectors have their say. -/
theorem selected?_ne_none
    (hlookup : ∀ rs fs, .selectors rs fs ∈ (selected? policy format names).questions →
      (policy.directory.selectors? rs fs).isSome = true) :
    (selected? policy format names).outcome ≠ .ok none := by
  intro h
  induction names with
  | nil => cases h
  | cons name rest ih =>
    have hask := policy.directory.outcome_askSelectors (ε := AccessError) [name] [format]
    unfold selected? at h hlookup
    rw [questions_bind_of_ok hask] at hlookup
    rw [outcome_bind_of_ok hask] at h
    have hsome := hlookup [name] [format] (List.mem_append_left _ List.mem_cons_self)
    obtain ⟨selectors, hselectors⟩ := Option.isSome_iff_exists.1 hsome
    rw [hselectors] at h hlookup
    obtain ⟨here, hhere, h⟩ := outcome_bind_eq_ok_iff.1 h
    obtain ⟨later, hlater, h⟩ := outcome_bind_eq_ok_iff.1 h
    cases later with
    | some later => cases h
    | none =>
      exact ih (fun rs fs hq => hlookup rs fs
        (List.mem_append_right _ (mem_questions_of_bind hhere (mem_questions_bind hq)))) hlater

/-! ## The filter -/

theorem eq_flatten_of_join {parts : List Expression} {e : Expression}
    (h : (match parts with
      | [] => fail .noAccess
      | first :: rest => pure (first.flatten .or rest) :
        Consultation AccessError Expression).outcome = .ok e) :
    ∃ first rest, parts = first :: rest ∧ e = first.flatten .or rest := by
  cases parts with
  | nil => cases h
  | cons first rest =>
    cases h
    exact ⟨first, rest, rfl, rfl⟩

/-- What an access filter is made of: the repositories that may be browsed or read, and what was
found of selectors, if the request asks for authorization. -/
theorem exists_found_of_compose {e : Expression} (h : (compose policy request).outcome = .ok e) :
    ∃ seen found first rest, visiblePart seen ++ found.getD [] = first :: rest ∧
      e = first.flatten .or rest ∧
      (∀ n, n ∈ seen ↔ policy.Resolved request n ∧
        policy.directory.permits n request.format [.browse, .read] = true) ∧
      (request.unauthorized = true → found = none) ∧
      (request.unauthorized = false → ∃ names, (∀ n, n ∈ names ↔ policy.Resolved request n) ∧
        (selected? policy request.format names).outcome = .ok found ∧
        ∀ q ∈ (selected? policy request.format names).questions,
          q ∈ (compose policy request).questions) := by
  unfold compose at h ⊢
  obtain ⟨names, hnames, h⟩ := outcome_bind_eq_ok_iff.1 h
  have hseen := outcome_visible policy request.format names
  have hresolved : ∀ n, n ∈ names ↔ policy.Resolved request n := fun n => mem_of_resolve hnames
  rw [outcome_bind_of_ok hseen] at h
  rw [questions_bind_of_ok hnames, questions_bind_of_ok hseen]
  have hmem : ∀ n, n ∈ names.filter (fun n => policy.directory.permits n request.format seeing) ↔
      policy.Resolved request n ∧
        policy.directory.permits n request.format [.browse, .read] = true := by
    intro n
    rw [List.mem_filter, hresolved, seeing]
  cases hu : request.unauthorized with
  | true =>
    rw [hu] at h
    obtain ⟨first, rest, hparts, rfl⟩ := eq_flatten_of_join h
    exact ⟨_, none, first, rest, hparts, rfl, hmem, fun _ => rfl, by simp⟩
  | false =>
    rw [hu] at h
    obtain ⟨found, hfound, h⟩ := outcome_bind_eq_ok_iff.1 h
    obtain ⟨first, rest, hparts, rfl⟩ := eq_flatten_of_join h
    exact ⟨_, found, first, rest, hparts, rfl, hmem, by simp, fun _ => ⟨names, hresolved, hfound,
      fun q hq => List.mem_append_right _ (List.mem_append_right _ (mem_questions_bind hq))⟩⟩

/-- The same when every lookup succeeds: of every repository there is what its selectors say. -/
theorem exists_parts_of_compose {e : Expression} (h : (compose policy request).outcome = .ok e)
    (hlookup : policy.LooksUp request) :
    ∃ seen selected first rest, visiblePart seen ++ selected = first :: rest ∧
      e = first.flatten .or rest ∧
      (∀ n, n ∈ seen ↔ policy.Resolved request n ∧
        policy.directory.permits n request.format [.browse, .read] = true) ∧
      (request.unauthorized = true → selected = []) ∧
      (request.unauthorized = false → ∃ names, (∀ n, n ∈ names ↔ policy.Resolved request n) ∧
        Confines policy request.format names selected) := by
  obtain ⟨seen, found, first, rest, hparts, rfl, hseen, hnone, hsome⟩ := exists_found_of_compose h
  refine ⟨seen, found.getD [], first, rest, hparts, rfl, hseen, fun hu => ?_, fun hu => ?_⟩
  · rw [hnone hu, Option.getD_none]
  · obtain ⟨names, hnames, hfound, hquestions⟩ := hsome hu
    have hne := selected?_ne_none fun rs fs hq => hlookup rs fs (hquestions _ hq)
    cases found with
    | none => exact absurd hfound hne
    | some es => exact ⟨names, hnames, confines_of_selected? hfound⟩

/-- Every part of an access filter is about repositories of the request, whether or not lookups of
selectors succeed. -/
theorem exists_scoped_of_compose {e : Expression} (h : (compose policy request).outcome = .ok e) :
    ∃ seen selected first rest, visiblePart seen ++ selected = first :: rest ∧
      e = first.flatten .or rest ∧ (∀ n ∈ seen, policy.Resolved request n) ∧
      ∀ x ∈ selected, ∃ n s, policy.Resolved request n ∧ confine policy n s = .ok x := by
  obtain ⟨seen, found, first, rest, hparts, rfl, hseen, hnone, hsome⟩ := exists_found_of_compose h
  refine ⟨seen, found.getD [], first, rest, hparts, rfl, fun n hn => ((hseen n).1 hn).1, ?_⟩
  cases found with
  | none => simp
  | some es =>
    have hu : request.unauthorized = false := Bool.eq_false_iff.2 fun hu => by cases hnone hu
    obtain ⟨names, hnames, hfound, -⟩ := hsome hu
    intro x hx
    obtain ⟨n, hn, s, -, hconfine⟩ := (confines_of_selected? hfound).only x hx
    exact ⟨n, s, (hnames n).1 hn, hconfine⟩

/-! ## An example -/

/-- Two repositories of the format `raw`, and one selector that is active for one of them. -/
def twoRaw (grants : List Grant) (selecting : String) (unreachable : List String) : AccessPolicy :=
  ⟨Listing.directory ⟨[⟨"a", "raw"⟩, ⟨"b", "raw"⟩], [], grants,
    [⟨selecting, none, ⟨"s", .csel, "format == 'raw'"⟩⟩], unreachable⟩, .standard,
    fun _ => .ok (.comparison "format" .equal "raw")⟩

end AccessPolicy

end SearchFilter
