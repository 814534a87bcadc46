import SearchFilter.Proofs.Access.Meaning
import SearchFilter.Proofs.Access.Outcome

/-!
# The order of the repositories of a request

It does not count in which order a request names its repositories, with one exception: where the
selectors of one repository cannot be looked up and a selector of another one gives no expression,
it is decisive which of the two is come upon first.

Main statements: `AccessPolicy.order_of_compose` and, about the exception,
`AccessPolicy.exists_perm_of_mixed`.
-/

namespace SearchFilter

/-- How composing ends, whatever the filter is and whatever is told about the error. -/
inductive Ending where
  | filter
  | unknownRepositories
  | noAccess
  | selector
  deriving DecidableEq, Repr

namespace Ending

variable {α : Type}

def of : Except AccessError α → Ending
  | .ok _ => filter
  | .error (.unknownRepositories _) => unknownRepositories
  | .error .noAccess => noAccess
  | .error (.selector _ _) => selector

theorem of_map {β : Type} (f : α → β) (x : Except AccessError α) : of (x.map f) = of x := by
  cases x with
  | ok a => rfl
  | error e => cases e <;> rfl

end Ending

namespace AccessPolicy

variable {policy : AccessPolicy} {request request' : AccessRequest} {n : String}
  {v : Predicate → Prop}

theorem mem_repositories : n ∈ policy.repositories request ↔ policy.Resolved request n := by
  unfold repositories candidates Resolved
  rw [mem_firstOccurrences, List.mem_filter]
  cases request.scope <;> rfl

/-! ## Mixed requests -/

/-- The selectors of some repository of a request cannot be looked up. -/
def Fails (policy : AccessPolicy) (request : AccessRequest) : Prop :=
  ∃ n, policy.Resolved request n ∧ policy.directory.selectors? [n] [request.format] = none

/-- A selector that is active for some repository of a request gives no expression. -/
def Spoiled (policy : AccessPolicy) (request : AccessRequest) : Prop :=
  ∃ n s cause, policy.Resolved request n ∧ policy.Active request.format n s ∧ policy.Spoils s cause

/-- A request for known repositories that asks for authorization where some selectors cannot be
looked up and others give no expression. -/
structure Mixed (policy : AccessPolicy) (request : AccessRequest) : Prop where
  known : policy.unknownNames request = []
  authorized : request.unauthorized = false
  fails : policy.Fails request
  spoiled : policy.Spoiled request

theorem Stops.spoiled {s : NamedSelector} {cause : SelectorError}
    (h : policy.Stops request s cause) : policy.Spoiled request := by
  obtain ⟨-, n, selectors, hn, hselectors, hs, hspoils⟩ := h
  have hactive : policy.Active request.format n s := ⟨hspoils.1, selectors, hselectors, hs.mem⟩
  exact ⟨n, s, cause, mem_repositories.1 hn.mem, hactive, hspoils⟩

theorem Clear.not_spoils {format : String} {s : NamedSelector} {cause : SelectorError}
    (h : policy.Clear format n) (hs : policy.Active format n s) : ¬ policy.Spoils s cause := by
  intro hspoils
  obtain ⟨selectors, hselectors, husable⟩ := h
  obtain ⟨hcsel, found, hfound, hmem⟩ := hs
  rw [hselectors] at hfound
  cases hfound
  obtain ⟨e, he⟩ := husable s hmem hcsel
  cases he.symm.trans hspoils.2

/-- A selector that gives no expression ends the composing, unless some lookup fails. -/
theorem exists_stops (hu : request.unauthorized = false) (hspoiled : policy.Spoiled request)
    (hfails : ¬ policy.Fails request) : ∃ s cause, policy.Stops request s cause := by
  rcases selected?_cases policy request.format (policy.repositories request) with
    hclear | ⟨n, hn, hnone⟩ | ⟨s, cause, hs⟩
  · obtain ⟨n, s, cause, hn, hactive, hspoils⟩ := hspoiled
    exact absurd hspoils ((hclear n (mem_repositories.2 hn)).not_spoils hactive)
  · exact absurd ⟨n, mem_repositories.1 hn.mem, hnone⟩ hfails
  · exact ⟨s, cause, hu, hs⟩

theorem exists_stops_iff (hknown : policy.unknownNames request = [])
    (hmixed : ¬ policy.Mixed request) :
    (∃ s cause, policy.Stops request s cause) ↔
      request.unauthorized = false ∧ policy.Spoiled request := by
  constructor
  · rintro ⟨s, cause, hstops⟩
    exact ⟨hstops.1, hstops.spoiled⟩
  · rintro ⟨hu, hspoiled⟩
    exact exists_stops hu hspoiled fun hfails => hmixed ⟨hknown, hu, hfails, hspoiled⟩

/-! ## Endings -/

/-- Nothing of selectors is in a filter when some lookup fails. -/
theorem found?_of_fails {found : Option (List Expression)} (hfails : policy.Fails request)
    (hfound : policy.found? request = .ok found) : found = none := by
  unfold found? at hfound
  split at hfound
  · cases hfound
    rfl
  · obtain ⟨n, hn, hnone⟩ := hfails
    exact (found_eq_none_iff hfound).2 ⟨n, mem_repositories.2 hn, hnone⟩

/-- Where some lookup fails, a selector ends the composing or selectors have no part in it. -/
theorem ending_of_fails (hfails : policy.Fails request) :
    Ending.of (compose policy request).outcome = .selector ∨
      (compose policy request).outcome = (compose policy request.withoutAuthorization).outcome := by
  by_cases hstops : policy.unknownNames request = [] ∧ ∃ s cause, policy.Stops request s cause
  · left
    obtain ⟨hknown, s, cause, hs⟩ := hstops
    rw [outcome_eq_error_iff.2 (.selector hknown hs)]
    rfl
  · right
    refine outcome_congr rfl rfl fun hknown => ?_
    obtain ⟨found, hfound, -⟩ :=
      exists_parts_eq_nil_iff fun s cause hs => hstops ⟨hknown, s, cause, hs⟩
    cases found?_of_fails hfails hfound
    exact hfound

/-- Requests for the same repositories, in whatever order. -/
structure Alike (policy : AccessPolicy) (request request' : AccessRequest) : Prop where
  format : request.format = request'.format
  unauthorized : request.unauthorized = request'.unauthorized
  known : policy.unknownNames request = [] ↔ policy.unknownNames request' = []
  resolved : ∀ n, policy.Resolved request n ↔ policy.Resolved request' n

theorem alike_of_perm {names names' : List String} (h : names.Perm names') (policy : AccessPolicy)
    (format : String) (unauthorized : Bool) :
    policy.Alike ⟨.named names, format, unauthorized⟩ ⟨.named names', format, unauthorized⟩ where
  format := rfl
  unauthorized := rfl
  known := by
    simp only [unknownNames, List.filter_eq_nil_iff, h.mem_iff]
  resolved n := and_congr_left fun _ => h.mem_iff

namespace Alike

variable (h : policy.Alike request request')
include h

theorem fails_iff : policy.Fails request ↔ policy.Fails request' := by
  unfold Fails
  simp only [h.resolved, h.format]

theorem spoiled_iff : policy.Spoiled request ↔ policy.Spoiled request' := by
  unfold Spoiled
  simp only [h.resolved, h.format]

theorem mixed_iff : policy.Mixed request ↔ policy.Mixed request' := by
  constructor
  · rintro ⟨hknown, hu, hfails, hspoiled⟩
    exact ⟨h.known.1 hknown, h.unauthorized ▸ hu, h.fails_iff.1 hfails, h.spoiled_iff.1 hspoiled⟩
  · rintro ⟨hknown, hu, hfails, hspoiled⟩
    exact ⟨h.known.2 hknown, h.unauthorized.trans hu, h.fails_iff.2 hfails,
      h.spoiled_iff.2 hspoiled⟩

theorem grantsNothing_iff : policy.GrantsNothing request ↔ policy.GrantsNothing request' := by
  unfold GrantsNothing
  simp only [mem_repositories, h.resolved, h.format, h.unauthorized]

theorem exists_stops_iff (hknown : policy.unknownNames request = [])
    (hmixed : ¬ policy.Mixed request) :
    (∃ s cause, policy.Stops request s cause) ↔ ∃ s cause, policy.Stops request' s cause := by
  rw [AccessPolicy.exists_stops_iff hknown hmixed,
    AccessPolicy.exists_stops_iff (h.known.1 hknown) (mt h.mixed_iff.2 hmixed), h.unauthorized,
    h.spoiled_iff]

/-- Unless they are mixed, requests for the same repositories end alike. -/
theorem ending_eq (hmixed : ¬ policy.Mixed request) :
    Ending.of (compose policy request).outcome = Ending.of (compose policy request').outcome := by
  obtain ⟨r, hr⟩ := exists_ends policy request
  have hends : ∃ r', Ends policy request' r' ∧ Ending.of r' = Ending.of r := by
    cases hr with
    | unknown hunknown => exact ⟨_, .unknown (mt h.known.2 hunknown), rfl⟩
    | selector hknown hs =>
      obtain ⟨s', cause', hs'⟩ := (h.exists_stops_iff hknown hmixed).1 ⟨_, _, hs⟩
      exact ⟨_, .selector (h.known.1 hknown) hs', rfl⟩
    | noAccess hknown hstops hnothing =>
      refine ⟨_, .noAccess (h.known.1 hknown) (fun s cause hs => ?_)
        (h.grantsNothing_iff.1 hnothing), rfl⟩
      obtain ⟨s', cause', hs'⟩ := (h.exists_stops_iff hknown hmixed).2 ⟨s, cause, hs⟩
      exact hstops s' cause' hs'
    | filter hknown hstops hgrants =>
      refine ⟨_, .filter (h.known.1 hknown) (fun s cause hs => ?_)
        (mt h.grantsNothing_iff.2 hgrants), rfl⟩
      obtain ⟨s', cause', hs'⟩ := (h.exists_stops_iff hknown hmixed).2 ⟨s, cause, hs⟩
      exact hstops s' cause' hs'
  obtain ⟨r', hr', heq⟩ := hends
  rw [← Ending.of_map (fun _ => ()) (compose policy request).outcome, ends_iff.1 hr, ← heq,
    ← ends_iff.1 hr', Ending.of_map]

end Alike

/-! ## Filters -/

/-- What a filter for a request is true of: all of the repositories that may be browsed or read,
and, if the request asks for authorization and all lookups succeed, of every repository what its
selectors say. -/
def Admitted (policy : AccessPolicy) (request : AccessRequest) (v : Predicate → Prop) : Prop :=
  (∃ n, policy.Resolved request n ∧
    policy.directory.permits n request.format [.browse, .read] = true ∧ v (inRepository n)) ∨
  (request.unauthorized = false ∧ ¬ policy.Fails request ∧
    ∃ n, policy.Resolved request n ∧ v (inRepository n) ∧ ∃ s, policy.Active request.format n s ∧
      ∃ tree, policy.reader s.text = .ok tree ∧ tree.Holds v policy.aliases)

theorem Alike.admitted_iff (h : policy.Alike request request') :
    policy.Admitted request v ↔ policy.Admitted request' v := by
  unfold Admitted
  simp only [h.resolved, h.format, h.unauthorized, h.fails_iff]

theorem value_iff_admitted {e : Expression} (h : (compose policy request).outcome = .ok e)
    (hv : ∀ names, v ⟨.repository, .oneOf, .exactValues names⟩ ↔ ∃ n ∈ names, v (inRepository n)) :
    e.value v ↔ policy.Admitted request v := by
  obtain ⟨seen, found, first, rest, hparts, rfl, hseen, hnone, hsome⟩ := exists_found_of_compose h
  have hvisible : (∃ e ∈ visiblePart seen, e.value v) ↔ ∃ n, policy.Resolved request n ∧
      policy.directory.permits n request.format [.browse, .read] = true ∧ v (inRepository n) := by
    rw [value_visiblePart hv]
    simp only [hseen, and_assoc]
  unfold Admitted
  rw [Formula.value_flatten_or, ← hparts, ← hvisible]
  simp only [List.mem_append, or_and_right, exists_or]
  refine or_congr_right ?_
  cases hu : request.unauthorized with
  | true =>
    rw [hnone hu]
    simp
  | false =>
    obtain ⟨names, hnames, hfound, -⟩ := hsome hu
    have hfails : found = none ↔ policy.Fails request := by
      rw [found_eq_none_iff hfound]
      simp only [hnames, Fails]
    cases found with
    | none => simp [hfails.1 rfl]
    | some es =>
      have hnot : ¬ policy.Fails request := fun hf => by cases hfails.2 hf
      rw [Option.getD_some, (confines_of_selected? hfound).value_iff]
      simp only [hnames, true_and, hnot, not_false_eq_true]

/-! ## Permutations -/

/-- Requests that name the same repositories in another order end alike, unless they are for known
repositories and ask for authorization where some selectors cannot be looked up and others give no
expression. There each of them ends with an error about a selector, or as it would without
authorization. Of two filters that they come to, either is true where the other one is. -/
theorem order_of_compose {names names' : List String} (h : names.Perm names')
    (policy : AccessPolicy) (format : String) (unauthorized : Bool) :
    (¬ policy.Mixed ⟨.named names, format, unauthorized⟩ →
      Ending.of (compose policy ⟨.named names, format, unauthorized⟩).outcome =
        Ending.of (compose policy ⟨.named names', format, unauthorized⟩).outcome) ∧
    (policy.Mixed ⟨.named names, format, unauthorized⟩ → ∀ l ∈ [names, names'],
      Ending.of (compose policy ⟨.named l, format, unauthorized⟩).outcome = .selector ∨
        (compose policy ⟨.named l, format, unauthorized⟩).outcome =
          (compose policy ⟨.named l, format, true⟩).outcome) ∧
    ∀ e e', (compose policy ⟨.named names, format, unauthorized⟩).outcome = .ok e →
      (compose policy ⟨.named names', format, unauthorized⟩).outcome = .ok e' →
        ∀ v : Predicate → Prop,
          (∀ names, v ⟨.repository, .oneOf, .exactValues names⟩ ↔
            ∃ n ∈ names, v (inRepository n)) →
          (e.value v ↔ e'.value v) := by
  have halike := alike_of_perm h policy format unauthorized
  refine ⟨halike.ending_eq, fun hmixed => ?_, fun e e' he he' v hv => ?_⟩
  · rw [List.forall_mem_cons, List.forall_mem_singleton]
    exact ⟨ending_of_fails hmixed.fails, ending_of_fails (halike.fails_iff.1 hmixed.fails)⟩
  · rw [value_iff_admitted he hv, value_iff_admitted he' hv, halike.admitted_iff]

/-- Two filters that list the same repositories in different orders. -/
theorem order_of_compose_a_b :
    ["a", "b"].Perm ["b", "a"] ∧
    ∃ e e', (compose (twoRaw [⟨"a", none, [.browse]⟩, ⟨"b", none, [.read]⟩] "b" [])
          ⟨.named ["a", "b"], "raw", false⟩).outcome = .ok e ∧
      (compose (twoRaw [⟨"a", none, [.browse]⟩, ⟨"b", none, [.read]⟩] "b" [])
          ⟨.named ["b", "a"], "raw", false⟩).outcome = .ok e' ∧
      e ≠ e' ∧ ∀ v : Predicate → Prop,
        (∀ names, v ⟨.repository, .oneOf, .exactValues names⟩ ↔ ∃ n ∈ names, v (inRepository n)) →
        (e.value v ↔ e'.value v) := by
  have hperm : ["a", "b"].Perm ["b", "a"] := .swap "b" "a" []
  refine ⟨hperm, ?_⟩
  have horder := (order_of_compose hperm
    (twoRaw [⟨"a", none, [.browse]⟩, ⟨"b", none, [.read]⟩] "b" []) "raw" false).2.2
  exact ⟨_, _, rfl, rfl, by decide, horder _ _ rfl rfl⟩

/-- The selectors of `a` cannot be looked up, and the one of `b` gives no expression. Whichever is
named first is decisive. -/
theorem not_forall_ending_eq :
    ¬ ∀ (policy : AccessPolicy) (names names' : List String) (format : String)
      (unauthorized : Bool), names.Perm names' →
        Ending.of (compose policy ⟨.named names, format, unauthorized⟩).outcome =
          Ending.of (compose policy ⟨.named names', format, unauthorized⟩).outcome := by
  intro h
  have heq := h ⟨Listing.directory ⟨[⟨"a", "raw"⟩, ⟨"b", "raw"⟩], [], [⟨"a", none, [.browse]⟩],
      [⟨"b", none, ⟨"s", .csel, "colour == 'red'"⟩⟩], ["a"]⟩, .standard,
      fun _ => .ok (.comparison "colour" .equal "red")⟩
    ["a", "b"] ["b", "a"] "raw" false (.swap "b" "a" [])
  exact absurd heq (by decide)

/-! ## Mixed requests in two orders -/

theorem exists_repositories_eq_cons (h : (policy.directory.repository? n).isSome = true)
    (rest : List String) (format : String) (unauthorized : Bool) :
    ∃ later, policy.repositories ⟨.named (n :: rest), format, unauthorized⟩ = n :: later := by
  unfold repositories candidates
  simp only [List.filter_cons, h, if_true]
  exact ⟨_, rfl⟩

/-- The first selector of a repository that gives no expression is come upon when the repository is
the first one. -/
theorem exists_stopsAt_cons {format : String} {s : NamedSelector} {cause : SelectorError}
    (hactive : policy.Active format n s) (hspoils : policy.Spoils s cause) (later : List String) :
    ∃ s' cause', policy.StopsAt format (n :: later) s' cause' := by
  obtain ⟨hcsel, selectors, hselectors, hmem⟩ := hactive
  have hn : Reached (policy.Clear format) (n :: later) n := ⟨[], later, rfl, nofun⟩
  rcases forall_or_exists_reached policy.Usable selectors with hall | ⟨s', hs', hnot⟩
  · have hclear : policy.Clear format n := ⟨selectors, hselectors, hall⟩
    exact absurd hspoils (hclear.not_spoils ⟨hcsel, selectors, hselectors, hmem⟩)
  · obtain ⟨cause', hcause'⟩ := (usable_or_spoils policy s').resolve_left hnot
    exact ⟨s', cause', n, selectors, hn, hselectors, hs', hcause'⟩

/-- The repositories of a mixed request can be named in an order that ends with an error about a
selector, and in one that does not. -/
theorem exists_perm_of_mixed {names : List String} {format : String}
    (h : policy.Mixed ⟨.named names, format, false⟩) :
    (∃ l, names.Perm l ∧
      Ending.of (compose policy ⟨.named l, format, false⟩).outcome = .selector) ∧
    ∃ l, names.Perm l ∧
      Ending.of (compose policy ⟨.named l, format, false⟩).outcome ≠ .selector := by
  obtain ⟨hknown, -, ⟨m, ⟨hm, hmknown⟩, hnone⟩, n, s, cause, ⟨hn, hnknown⟩, hactive, hspoils⟩ := h
  constructor
  · have hperm := List.perm_cons_erase hn
    refine ⟨_, hperm, ?_⟩
    have hknown' := (alike_of_perm hperm policy format false).known.1 hknown
    obtain ⟨later, hlater⟩ := exists_repositories_eq_cons hnknown (names.erase n) format false
    obtain ⟨s', cause', hs'⟩ := exists_stopsAt_cons hactive hspoils later
    rw [outcome_eq_error_iff.2 (.selector hknown' ⟨rfl, hlater ▸ hs'⟩)]
    rfl
  · have hperm := List.perm_cons_erase hm
    refine ⟨_, hperm, ?_⟩
    have hknown' := (alike_of_perm hperm policy format false).known.1 hknown
    obtain ⟨later, hlater⟩ := exists_repositories_eq_cons hmknown (names.erase m) format false
    have hreached : Reached (policy.Clear format) (m :: later) m := ⟨[], later, rfl, nofun⟩
    have hfound : policy.found? ⟨.named (m :: names.erase m), format, false⟩ = .ok none := by
      unfold found?
      rw [if_neg Bool.false_ne_true, hlater]
      exact outcome_selected?_of_failing hreached hnone
    rw [compose_of_found hknown' hfound]
    cases visiblePart (policy.seen ⟨.named (m :: names.erase m), format, false⟩) with
    | nil => exact nofun
    | cons first rest => exact nofun

end AccessPolicy

end SearchFilter
