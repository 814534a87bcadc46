import SearchFilter.Proofs.Access.Joins
import SearchFilter.Proofs.Access.Parts

/-!
# What comes of composing an access filter

Names that belong to no repository end the composing first. Then the selectors of the repositories
are looked up in order, and the first of them that gives no expression ends it too, unless a lookup
fails before. Otherwise there is a filter, unless it would let nothing through.

Main statement: `AccessPolicy.outcomes_of_compose`.
-/

namespace SearchFilter

open Consultation

/-! ## The first of its kind -/

section
variable {α : Type} {p : α → Prop} {l : List α} {a b : α}

/-- A member of a list that comes after members with `p` only. -/
def Reached (p : α → Prop) (l : List α) (a : α) : Prop :=
  ∃ before after, l = before ++ a :: after ∧ ∀ b ∈ before, p b

theorem Reached.mem (h : Reached p l a) : a ∈ l := by
  obtain ⟨before, after, rfl, -⟩ := h
  exact List.mem_append_right _ List.mem_cons_self

theorem Reached.cons (hb : p b) (h : Reached p l a) : Reached p (b :: l) a := by
  obtain ⟨before, after, rfl, hbefore⟩ := h
  exact ⟨b :: before, after, rfl, List.forall_mem_cons.2 ⟨hb, hbefore⟩⟩

/-- Either all members have `p`, or there is a first one that does not. -/
theorem forall_or_exists_reached (p : α → Prop) (l : List α) :
    (∀ a ∈ l, p a) ∨ ∃ a, Reached p l a ∧ ¬ p a := by
  induction l with
  | nil => exact .inl nofun
  | cons b l ih =>
    by_cases hb : p b
    · rcases ih with hall | ⟨a, ha, hna⟩
      · exact .inl (List.forall_mem_cons.2 ⟨hb, hall⟩)
      · exact .inr ⟨a, ha.cons hb, hna⟩
    · exact .inr ⟨b, ⟨[], l, rfl, nofun⟩, hb⟩

end

namespace AccessPolicy

variable (policy : AccessPolicy) (request : AccessRequest)

/-! ## Repositories -/

/-- The names that a request gives, or that its format stands for. -/
def candidates : List String :=
  match request.scope with
  | .named names => names
  | .ofFormat => policy.directory.namesOfFormat request.format

/-- The names that a request gives and that belong to no repository. -/
def unknownNames : List String :=
  match request.scope with
  | .named names => names.filter fun n => (policy.directory.repository? n).isNone
  | .ofFormat => []

/-- The repositories that a request is about, each once, in order. -/
def repositories : List String :=
  firstOccurrences ((policy.candidates request).filter fun n =>
    (policy.directory.repository? n).isSome)

/-! ## Selectors -/

/-- A selector in the language that can be translated that gives no expression. -/
def Spoils (s : NamedSelector) (cause : SelectorError) : Prop :=
  s.language = .csel ∧ Selector.expressionOf policy.reader policy.aliases s.text = .error cause

/-- A selector that gives an expression, or none is wanted of it. -/
def Usable (s : NamedSelector) : Prop :=
  s.language = .csel → ∃ e, Selector.expressionOf policy.reader policy.aliases s.text = .ok e

/-- A repository whose selectors can be looked up and are all usable. -/
def Clear (format name : String) : Prop :=
  ∃ selectors, policy.directory.selectors? [name] [format] = some selectors ∧
    ∀ s ∈ selectors, policy.Usable s

theorem usable_iff_isOk (s : NamedSelector) :
    policy.Usable s ↔ (s.language = .csel →
      (Selector.expressionOf policy.reader policy.aliases s.text).isOk = true) := by
  unfold Usable
  cases Selector.expressionOf policy.reader policy.aliases s.text <;>
    simp [Except.isOk, Except.toBool]

instance : DecidablePred policy.Usable := fun s =>
  decidable_of_iff _ (usable_iff_isOk policy s).symm

instance (format : String) : DecidablePred (policy.Clear format) := fun name =>
  decidable_of_iff (((policy.directory.selectors? [name] [format]).any fun selectors =>
    selectors.all (policy.Usable ·)) = true) (by simp [Clear, Option.any_eq_true])

/-- A selector that is come upon, in the order of the repositories and of the selectors of each,
before any lookup that fails and any other selector that gives no expression. -/
def StopsAt (format : String) (names : List String) (s : NamedSelector) (cause : SelectorError) :
    Prop :=
  ∃ name selectors, Reached (policy.Clear format) names name ∧
    policy.directory.selectors? [name] [format] = some selectors ∧
    Reached policy.Usable selectors s ∧ policy.Spoils s cause

/-- A selector that ends the composing for a request, because it gives no expression. -/
def Stops (s : NamedSelector) (cause : SelectorError) : Prop :=
  request.unauthorized = false ∧
    policy.StopsAt request.format (policy.repositories request) s cause

/-- A request none of whose repositories may be browsed or read, when selectors have no part in it,
cannot be looked up or are not there. -/
def GrantsNothing : Prop :=
  (∀ n ∈ policy.repositories request,
    policy.directory.permits n request.format [.browse, .read] = false) ∧
  (request.unauthorized = true ∨
    (∃ n ∈ policy.repositories request,
      policy.directory.selectors? [n] [request.format] = none) ∨
    ∀ n ∈ policy.repositories request, ∀ s, ¬ policy.Active request.format n s)

variable {policy request} {format name : String} {names : List String} {s : NamedSelector}
  {selectors : List NamedSelector} {cause : SelectorError}

/-! ## Names first -/

theorem questions_partKnown (policy : AccessPolicy) (names : List String) :
    (partKnown policy names).questions = names.map .repository := by
  induction names with
  | nil => rfl
  | cons name rest ih =>
    rw [partKnown, questions_bind_of_ok (Directory.outcome_askRepository _ name),
      questions_bind_of_ok (outcome_partKnown policy rest), ih]
    dsimp only
    split
    · exact congrArg _ (List.append_nil _)
    · exact congrArg _ (List.append_nil _)

theorem outcome_resolve (h : policy.unknownNames request = []) :
    (resolve policy request).outcome = .ok (policy.repositories request) := by
  unfold unknownNames at h
  unfold resolve repositories candidates
  cases hscope : request.scope with
  | named names =>
    rw [hscope] at h
    dsimp only at h ⊢
    rw [outcome_bind_of_ok (outcome_partKnown policy names), h]
    rfl
  | ofFormat =>
    dsimp only
    have hnames : (policy.directory.askNames request.format :
        Consultation AccessError _).outcome = .ok _ := rfl
    rw [outcome_bind_of_ok hnames, outcome_bind_of_ok (outcome_partKnown policy _)]
    rfl

theorem resolve_of_unknownNames (h : policy.unknownNames request ≠ []) :
    resolve policy request = ⟨(policy.candidates request).map .repository,
      .error (.unknownRepositories (policy.unknownNames request))⟩ := by
  unfold unknownNames at h ⊢
  unfold resolve candidates
  cases hscope : request.scope with
  | named names =>
    rw [hscope] at h
    dsimp only at h ⊢
    rw [bind_of_ok (outcome_partKnown policy names), questions_partKnown,
      if_neg (by simpa using h)]
    exact congrArg (Consultation.mk · _) (List.append_nil _)
  | ofFormat =>
    rw [hscope] at h
    exact absurd rfl h

theorem compose_of_unknownNames (h : policy.unknownNames request ≠ []) :
    compose policy request = ⟨(policy.candidates request).map .repository,
      .error (.unknownRepositories (policy.unknownNames request))⟩ := by
  have houtcome := congrArg Consultation.outcome (resolve_of_unknownNames h)
  unfold compose
  rw [bind_of_error houtcome, resolve_of_unknownNames h]

/-! ## Then selectors -/

theorem usable_or_spoils (policy : AccessPolicy) (s : NamedSelector) :
    policy.Usable s ∨ ∃ cause, policy.Spoils s cause := by
  unfold Usable Spoils
  cases Selector.expressionOf policy.reader policy.aliases s.text with
  | ok e => exact .inl fun _ => ⟨e, rfl⟩
  | error cause =>
    by_cases hs : s.language = .csel
    · exact .inr ⟨cause, hs, rfl⟩
    · exact .inl fun h => absurd h hs

theorem confineAll_of_usable (hs : policy.Usable s) (name : String) :
    ∃ here, ∀ rest, confineAll policy name (s :: rest) =
      (confineAll policy name rest).map (here ++ ·) := by
  unfold confineAll
  by_cases hcsel : s.language = .csel
  · obtain ⟨e, he⟩ := hs hcsel
    refine ⟨[e.flatten .and [Expression.compare .repository .eq (.exact name)]], fun rest => ?_⟩
    rw [List.filter_cons_of_pos (by simpa using hcsel), List.mapM_cons, confine, he]
    cases (rest.filter (·.language == .csel)).mapM (confine policy name) with
    | error cause => rfl
    | ok es => rfl
  · refine ⟨[], fun rest => ?_⟩
    rw [List.filter_cons_of_neg (by simpa using hcsel)]
    cases (rest.filter (·.language == .csel)).mapM (confine policy name) with
    | error cause => rfl
    | ok es => rfl

theorem confineAll_of_spoils (hs : policy.Spoils s cause) (name : String)
    (rest : List NamedSelector) :
    confineAll policy name (s :: rest) = .error (.selector s.name cause) := by
  unfold confineAll
  rw [List.filter_cons_of_pos (by simp [hs.1]), List.mapM_cons, confine, hs.2]
  rfl

theorem exists_confineAll (hall : ∀ s ∈ selectors, policy.Usable s) (name : String) :
    ∃ es, confineAll policy name selectors = .ok es := by
  induction selectors with
  | nil => exact ⟨[], rfl⟩
  | cons s rest ih =>
    rw [List.forall_mem_cons] at hall
    obtain ⟨here, hhere⟩ := confineAll_of_usable hall.1 name
    obtain ⟨es, hes⟩ := ih hall.2
    exact ⟨here ++ es, by rw [hhere, hes]; rfl⟩

/-- The first selector that gives no expression is the error. -/
theorem confineAll_of_reached (h : Reached policy.Usable selectors s) (hs : policy.Spoils s cause)
    (name : String) : confineAll policy name selectors = .error (.selector s.name cause) := by
  obtain ⟨before, after, rfl, hbefore⟩ := h
  induction before with
  | nil => exact confineAll_of_spoils hs name after
  | cons b before ih =>
    rw [List.forall_mem_cons] at hbefore
    obtain ⟨here, hhere⟩ := confineAll_of_usable hbefore.1 name
    rw [List.cons_append, hhere, ih hbefore.2]
    rfl

theorem outcome_selected?_cons (policy : AccessPolicy) (format name : String) (rest : List String) :
    (selected? policy format (name :: rest)).outcome =
      match policy.directory.selectors? [name] [format] with
      | none => .ok none
      | some selectors => do
        let here ← confineAll policy name selectors
        let later ← (selected? policy format rest).outcome
        return later.map (here ++ ·) := by
  have hask := policy.directory.outcome_askSelectors (ε := AccessError) [name] [format]
  rw [selected?, outcome_bind_of_ok hask]
  cases policy.directory.selectors? [name] [format] with
  | none => rfl
  | some selectors =>
    dsimp only
    cases hhere : confineAll policy name selectors with
    | error cause => rfl
    | ok here =>
      rw [outcome_bind_of_ok (a := here) rfl]
      cases hlater : (selected? policy format rest).outcome with
      | error cause => exact outcome_bind_of_error hlater
      | ok later => exact outcome_bind_of_ok hlater

/-- Nothing is found just when some lookup fails. -/
theorem found_eq_none_iff {found : Option (List Expression)}
    (h : (selected? policy format names).outcome = .ok found) :
    found = none ↔ ∃ n ∈ names, policy.directory.selectors? [n] [format] = none := by
  induction names generalizing found with
  | nil =>
    cases h
    simp
  | cons name rest ih =>
    rw [outcome_selected?_cons] at h
    rw [List.exists_mem_cons_iff]
    cases hselectors : policy.directory.selectors? [name] [format] with
    | none =>
      rw [hselectors] at h
      cases h
      simp
    | some selectors =>
      rw [hselectors] at h
      obtain ⟨here, -, h⟩ := bind_eq_ok_iff.1 h
      obtain ⟨later, hlater, h⟩ := bind_eq_ok_iff.1 h
      cases h
      rw [Option.map_eq_none_iff, ih hlater]
      simp

theorem outcome_selected?_of_clear (h : policy.Clear format name) :
    ∃ here, ∀ rest, (selected? policy format (name :: rest)).outcome =
      (selected? policy format rest).outcome.map (Option.map (here ++ ·)) := by
  obtain ⟨selectors, hselectors, hall⟩ := h
  obtain ⟨here, hhere⟩ := exists_confineAll hall name
  refine ⟨here, fun rest => ?_⟩
  rw [outcome_selected?_cons, hselectors]
  dsimp only
  rw [hhere]
  cases (selected? policy format rest).outcome with
  | error cause => rfl
  | ok later => rfl

theorem exists_selected? (hall : ∀ n ∈ names, policy.Clear format n) :
    ∃ es, (selected? policy format names).outcome = .ok (some es) := by
  induction names with
  | nil => exact ⟨[], rfl⟩
  | cons name rest ih =>
    rw [List.forall_mem_cons] at hall
    obtain ⟨here, hhere⟩ := outcome_selected?_of_clear hall.1
    obtain ⟨es, hes⟩ := ih hall.2
    exact ⟨here ++ es, by rw [hhere, hes]; rfl⟩

/-- A lookup that fails ends the search for selectors, and none is used. -/
theorem outcome_selected?_of_failing (h : Reached (policy.Clear format) names name)
    (hnone : policy.directory.selectors? [name] [format] = none) :
    (selected? policy format names).outcome = .ok none := by
  obtain ⟨before, after, rfl, hbefore⟩ := h
  induction before with
  | nil => rw [List.nil_append, outcome_selected?_cons, hnone]
  | cons b before ih =>
    rw [List.forall_mem_cons] at hbefore
    obtain ⟨here, hhere⟩ := outcome_selected?_of_clear hbefore.1
    rw [List.cons_append, hhere, ih hbefore.2]
    rfl

theorem outcome_selected?_of_stopsAt (h : policy.StopsAt format names s cause) :
    (selected? policy format names).outcome = .error (.selector s.name cause) := by
  obtain ⟨name, selectors, ⟨before, after, rfl, hbefore⟩, hselectors, hreached, hs⟩ := h
  induction before with
  | nil =>
    rw [List.nil_append, outcome_selected?_cons, hselectors]
    dsimp only
    rw [confineAll_of_reached hreached hs]
    rfl
  | cons b before ih =>
    rw [List.forall_mem_cons] at hbefore
    obtain ⟨here, hhere⟩ := outcome_selected?_of_clear hbefore.1
    rw [List.cons_append, hhere, ih hbefore.2]
    rfl

/-- What can come of looking up the selectors of repositories. -/
theorem selected?_cases (policy : AccessPolicy) (format : String) (names : List String) :
    (∀ n ∈ names, policy.Clear format n) ∨
    (∃ name, Reached (policy.Clear format) names name ∧
      policy.directory.selectors? [name] [format] = none) ∨
    ∃ s cause, policy.StopsAt format names s cause := by
  rcases forall_or_exists_reached (policy.Clear format) names with hall | ⟨name, hname, hnot⟩
  · exact .inl hall
  · refine .inr ?_
    cases hselectors : policy.directory.selectors? [name] [format] with
    | none => exact .inl ⟨name, hname, hselectors⟩
    | some selectors =>
      rcases forall_or_exists_reached policy.Usable selectors with hall | ⟨s, hs, hspoils⟩
      · exact absurd ⟨selectors, hselectors, hall⟩ hnot
      · obtain ⟨cause, hcause⟩ := (usable_or_spoils policy s).resolve_left hspoils
        exact .inr ⟨s, cause, name, selectors, hname, hselectors, hs, hcause⟩

/-! ## The filter -/

/-- What the selectors of a request come to: nothing when they are left aside. -/
def found? (policy : AccessPolicy) (request : AccessRequest) :
    Except AccessError (Option (List Expression)) :=
  if request.unauthorized then .ok none
  else (selected? policy request.format (policy.repositories request)).outcome

/-- The repositories of a request that may be browsed or read. -/
def seen (policy : AccessPolicy) (request : AccessRequest) : List String :=
  (policy.repositories request).filter fun n => policy.directory.permits n request.format seeing

theorem compose_of_error {e : AccessError} (h : policy.unknownNames request = [])
    (hfound : policy.found? request = .error e) : (compose policy request).outcome = .error e := by
  unfold found? at hfound
  unfold compose
  rw [outcome_bind_of_ok (outcome_resolve h), outcome_bind_of_ok (outcome_visible policy _ _)]
  split at hfound
  · cases hfound
  · next hu =>
    rw [if_neg hu]
    exact outcome_bind_of_error hfound

theorem outcome_join (parts : List Expression) :
    (match parts with
      | [] => fail .noAccess
      | first :: rest => pure (first.flatten .or rest) :
        Consultation AccessError Expression).outcome =
      (Formula.flatten? .or parts).mapError fun _ => .noAccess := by
  cases parts with
  | nil => rfl
  | cons first rest => rfl

/-- Without a selector to stop at, the parts are joined, if there are any. -/
theorem compose_of_found {found : Option (List Expression)} (h : policy.unknownNames request = [])
    (hfound : policy.found? request = .ok found) :
    (compose policy request).outcome =
      (Formula.flatten? .or (visiblePart (policy.seen request) ++ found.getD [])).mapError
        fun _ => .noAccess := by
  unfold found? at hfound
  unfold compose seen
  rw [outcome_bind_of_ok (outcome_resolve h), outcome_bind_of_ok (outcome_visible policy _ _)]
  dsimp only
  split at hfound
  · next hu =>
    cases hfound
    rw [if_pos hu, outcome_bind_of_ok (outcome_pure none)]
    exact outcome_join _
  · next hu =>
    rw [if_neg hu, outcome_bind_of_ok hfound]
    exact outcome_join _

/-- What a request comes to is told by its unknown names, by its repositories that may be browsed or
read, and by what its selectors come to. -/
theorem outcome_congr {policy' : AccessPolicy} {request' : AccessRequest}
    (hunknown : policy.unknownNames request = policy'.unknownNames request')
    (hseen : policy.seen request = policy'.seen request')
    (hfound : policy.unknownNames request = [] →
      policy.found? request = policy'.found? request') :
    (compose policy request).outcome = (compose policy' request').outcome := by
  by_cases hknown : policy.unknownNames request = []
  · have hknown' : policy'.unknownNames request' = [] := hunknown ▸ hknown
    have hfound' := hfound hknown
    cases h : policy.found? request with
    | error e => rw [compose_of_error hknown h, compose_of_error hknown' (hfound' ▸ h)]
    | ok found => rw [compose_of_found hknown h, compose_of_found hknown' (hfound' ▸ h), hseen]
  · rw [compose_of_unknownNames hknown, compose_of_unknownNames (hunknown ▸ hknown), hunknown]

theorem visiblePart_eq_nil_iff : visiblePart names = [] ↔ names = [] := by
  cases names with
  | nil => simp [visiblePart]
  | cons name rest => simp [visiblePart]

theorem seen_eq_nil_iff : policy.seen request = [] ↔ ∀ n ∈ policy.repositories request,
    policy.directory.permits n request.format [.browse, .read] = false := by
  simp [seen, seeing, List.filter_eq_nil_iff]

/-- Repositories without an active selector give nothing, and no others do. -/
theorem Confines.eq_nil_iff {es : List Expression} (h : Confines policy format names es) :
    es = [] ↔ ∀ n ∈ names, ∀ s, ¬ policy.Active format n s := by
  constructor
  · rintro rfl n hn s hs
    obtain ⟨e, he, -⟩ := h.each n hn s hs
    exact absurd he List.not_mem_nil
  · intro hnone
    rw [List.eq_nil_iff_forall_not_mem]
    intro e he
    obtain ⟨n, hn, s, hs, -⟩ := h.only e he
    exact hnone n hn s hs

/-- There is nothing to join just when the request grants nothing. -/
theorem exists_parts_eq_nil_iff (hstops : ∀ s cause, ¬ policy.Stops request s cause) :
    ∃ found, policy.found? request = .ok found ∧
      (visiblePart (policy.seen request) ++ found.getD [] = [] ↔ policy.GrantsNothing request) := by
  unfold GrantsNothing found?
  simp only [List.append_eq_nil_iff, visiblePart_eq_nil_iff, seen_eq_nil_iff]
  cases hu : request.unauthorized with
  | true => exact ⟨none, rfl, and_congr_right fun _ => by simp⟩
  | false =>
    simp only [Bool.false_eq_true, if_false, false_or]
    rcases selected?_cases policy request.format (policy.repositories request) with
      hclear | ⟨name, hreached, hnone⟩ | ⟨s, cause, hs⟩
    · obtain ⟨es, hes⟩ := exists_selected? hclear
      refine ⟨some es, hes, and_congr_right fun _ => ?_⟩
      rw [Option.getD_some, (confines_of_selected? hes).eq_nil_iff, or_iff_right]
      rintro ⟨n, hn, hnone⟩
      obtain ⟨selectors, hselectors, -⟩ := hclear n hn
      rw [hselectors] at hnone
      cases hnone
    · refine ⟨none, outcome_selected?_of_failing hreached hnone, and_congr_right fun _ => ?_⟩
      exact iff_of_true rfl (.inl ⟨name, hreached.mem, hnone⟩)
    · exact absurd ⟨hu, hs⟩ (hstops s cause)

/-! ## Outcomes -/

/-- How composing ends, with a unit for the filter. -/
inductive Ends (policy : AccessPolicy) (request : AccessRequest) : Except AccessError Unit → Prop
  | unknown (h : policy.unknownNames request ≠ []) :
    Ends policy request (.error (.unknownRepositories (policy.unknownNames request)))
  | selector {s : NamedSelector} {cause : SelectorError} (h : policy.unknownNames request = [])
    (hs : policy.Stops request s cause) : Ends policy request (.error (.selector s.name cause))
  | noAccess (h : policy.unknownNames request = [])
    (hstops : ∀ s cause, ¬ policy.Stops request s cause) (hnothing : policy.GrantsNothing request) :
    Ends policy request (.error .noAccess)
  | filter (h : policy.unknownNames request = [])
    (hstops : ∀ s cause, ¬ policy.Stops request s cause)
    (hgrants : ¬ policy.GrantsNothing request) : Ends policy request (.ok ())

variable {r : Except AccessError Unit}

theorem Ends.map_outcome (h : Ends policy request r) :
    (compose policy request).outcome.map (fun _ => ()) = r := by
  cases h with
  | unknown h =>
    rw [compose_of_unknownNames h]
    rfl
  | @selector s cause h hs =>
    have hfound : policy.found? request = .error (.selector s.name cause) := by
      rw [found?, hs.1, if_neg Bool.false_ne_true]
      exact outcome_selected?_of_stopsAt hs.2
    rw [compose_of_error h hfound]
    rfl
  | noAccess h hstops hnothing =>
    obtain ⟨found, hfound, hnil⟩ := exists_parts_eq_nil_iff hstops
    rw [compose_of_found h hfound, hnil.2 hnothing]
    rfl
  | filter h hstops hgrants =>
    obtain ⟨found, hfound, hnil⟩ := exists_parts_eq_nil_iff hstops
    obtain ⟨first, rest, hparts⟩ := List.exists_cons_of_ne_nil (mt hnil.1 hgrants)
    rw [compose_of_found h hfound, hparts]
    rfl

theorem exists_ends (policy : AccessPolicy) (request : AccessRequest) :
    ∃ r, Ends policy request r := by
  by_cases h : policy.unknownNames request = []
  · by_cases hstops : ∃ s cause, policy.Stops request s cause
    · obtain ⟨s, cause, hs⟩ := hstops
      exact ⟨_, .selector h hs⟩
    · simp only [not_exists] at hstops
      by_cases hnothing : policy.GrantsNothing request
      · exact ⟨_, .noAccess h hstops hnothing⟩
      · exact ⟨_, .filter h hstops hnothing⟩
  · exact ⟨_, .unknown h⟩

theorem ends_iff :
    Ends policy request r ↔ (compose policy request).outcome.map (fun _ => ()) = r := by
  refine ⟨Ends.map_outcome, ?_⟩
  rintro rfl
  obtain ⟨r, hr⟩ := exists_ends policy request
  rwa [hr.map_outcome]

theorem outcome_eq_error_iff {e : AccessError} :
    (compose policy request).outcome = .error e ↔ Ends policy request (.error e) := by
  rw [ends_iff]
  cases (compose policy request).outcome with
  | error e' => simp [Except.map]
  | ok filter => simp [Except.map]

theorem exists_outcome_eq_ok_iff :
    (∃ filter, (compose policy request).outcome = .ok filter) ↔ Ends policy request (.ok ()) := by
  rw [ends_iff]
  cases (compose policy request).outcome with
  | error e => simp [Except.map]
  | ok filter => simp [Except.map]

/-- What comes of composing an access filter, and when. Unknown names are found before anything
else is asked, and no join fails. -/
theorem outcomes_of_compose (policy : AccessPolicy) (request : AccessRequest) :
    (∀ names, (compose policy request).outcome = .error (.unknownRepositories names) ↔
      names ≠ [] ∧ names = policy.unknownNames request) ∧
    (policy.unknownNames request ≠ [] →
      (compose policy request).questions = (policy.candidates request).map .repository) ∧
    (∀ name cause, (compose policy request).outcome = .error (.selector name cause) ↔
      policy.unknownNames request = [] ∧ ∃ s, s.name = name ∧ policy.Stops request s cause) ∧
    ((compose policy request).outcome = .error .noAccess ↔
      policy.unknownNames request = [] ∧ (∀ s cause, ¬ policy.Stops request s cause) ∧
        policy.GrantsNothing request) ∧
    ((∃ filter, (compose policy request).outcome = .ok filter) ↔
      policy.unknownNames request = [] ∧ (∀ s cause, ¬ policy.Stops request s cause) ∧
        ¬ policy.GrantsNothing request) ∧
    composeOrFault policy request = (compose policy request).mapError .access ∧
    ∀ e, (composeOrFault policy request).outcome ≠ .error (.join e) := by
  refine ⟨fun names => ?_, fun h => by rw [compose_of_unknownNames h], fun name cause => ?_, ?_, ?_,
    composeOrFault_eq policy request, composeOrFault_ne_join policy request⟩
  · rw [outcome_eq_error_iff]
    constructor
    · intro hends
      cases hends with
      | unknown h => exact ⟨h, rfl⟩
    · rintro ⟨h, rfl⟩
      exact .unknown h
  · rw [outcome_eq_error_iff]
    constructor
    · intro hends
      cases hends with
      | selector h hs => exact ⟨h, _, rfl, hs⟩
    · rintro ⟨h, s, rfl, hs⟩
      exact .selector h hs
  · rw [outcome_eq_error_iff]
    constructor
    · intro hends
      cases hends with
      | noAccess h hstops hnothing => exact ⟨h, hstops, hnothing⟩
    · rintro ⟨h, hstops, hnothing⟩
      exact .noAccess h hstops hnothing
  · rw [exists_outcome_eq_ok_iff]
    constructor
    · intro hends
      cases hends with
      | filter h hstops hgrants => exact ⟨h, hstops, hgrants⟩
    · rintro ⟨h, hstops, hgrants⟩
      exact .filter h hstops hgrants

theorem outcomes_of_compose_unknown_c :
    unknownNames (twoRaw [] "a" []) ⟨.named ["c", "a"], "raw", false⟩ ≠ [] ∧
    (compose (twoRaw [] "a" []) ⟨.named ["c", "a"], "raw", false⟩).questions =
      [.repository "c", .repository "a"] :=
  ⟨by decide, (outcomes_of_compose _ _).2.1 (by decide)⟩

-- The selector of `a` that gives no expression is come upon before the lookup for `b` fails.
example : (compose ⟨Listing.directory ⟨[⟨"a", "raw"⟩, ⟨"b", "raw"⟩], [], [⟨"b", none, [.read]⟩],
      [⟨"a", none, ⟨"j", .jexl, "true"⟩⟩, ⟨"a", none, ⟨"s", .csel, "colour == 'red'"⟩⟩], ["b"]⟩,
      .standard, fun _ => .ok (.comparison "colour" .equal "red")⟩
    ⟨.named ["a", "b"], "raw", false⟩).outcome =
      .error (.selector "s" (.unknownProperty "colour")) := rfl

end AccessPolicy

end SearchFilter
