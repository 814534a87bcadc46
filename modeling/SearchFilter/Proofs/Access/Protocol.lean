import SearchFilter.Proofs.Access.Outcome

/-!
# The calls of a composer

Whoever composes an access filter asks a directory questions and translates the selectors that it
is told of. The questions come in a fixed order: which names there are, which of them belong to
repositories, what the user may do with each repository, and last, if the request asks for
authorization, which selectors each repository has. Those of one repository are translated before
those of the next one are looked up, and the first lookup that fails or the first selector that
gives no expression is the end of it.

`recordedCompose` is a composer that records its calls, translations among them.

Main statement: `AccessPolicy.calls_of_compose`.
-/

namespace SearchFilter

open Consultation

/-! ## Up to the first of its kind -/

section
variable {α : Type} {p : α → Prop} [DecidablePred p] {a : α}

/-- The start of a list up to the first member without `p`, that member included. -/
def through (p : α → Prop) [DecidablePred p] (l : List α) : List α :=
  l.takeWhile (p ·) ++ (l.dropWhile (p ·)).take 1

theorem through_cons_of_pos (h : p a) (l : List α) : through p (a :: l) = a :: through p l := by
  rw [through, List.takeWhile_cons_of_pos (by simpa using h),
    List.dropWhile_cons_of_pos (by simpa using h)]
  rfl

theorem through_cons_of_neg (h : ¬ p a) (l : List α) : through p (a :: l) = [a] := by
  rw [through, List.takeWhile_cons_of_neg (by simpa using h),
    List.dropWhile_cons_of_neg (by simpa using h)]
  rfl

end

/-! ## Recorded computations -/

/-- What a composer calls for: the answer to a question, or the expression of a selector. -/
inductive Call where
  | question (q : Question)
  | translation (s : NamedSelector)
  deriving DecidableEq, Repr

/-- A computation that records its calls, also those before an error. -/
abbrev Recorded (α : Type) := ExceptT AccessError (StateM (List Call)) α

namespace Recorded

variable {α β : Type}

/-- Makes some calls and takes what comes of them. -/
def perform (calls : List Call) (outcome : Except AccessError α) : Recorded α :=
  ExceptT.mk fun before => (outcome, before ++ calls)

/-- Asks the questions of a consultation. -/
def consult (x : Consultation AccessError α) : Recorded α :=
  perform (x.questions.map .question) x.outcome

theorem pure_eq (a : α) : (pure a : Recorded α) = perform [] (.ok a) := by
  funext before
  exact congrArg (fun calls => (Except.ok a, calls)) (List.append_nil before).symm

theorem throw_eq (e : AccessError) : (throw e : Recorded α) = perform [] (.error e) := by
  funext before
  exact congrArg (fun calls => (Except.error e, calls)) (List.append_nil before).symm

/-- The calls of the second part are made after those of the first. -/
theorem perform_ok_bind {calls later : List Call} {a : α} {f : α → Recorded β}
    {outcome : Except AccessError β} (h : f a = perform later outcome) :
    perform calls (.ok a) >>= f = perform (calls ++ later) outcome := by
  funext before
  have hrun : (perform calls (.ok a) >>= f) before = f a (before ++ calls) := rfl
  rw [hrun, h]
  exact congrArg (fun calls => (outcome, calls)) (List.append_assoc before calls later)

theorem perform_ok_bind_pure {calls : List Call} {a : α} (f : α → β) :
    (perform calls (.ok a) >>= fun a => pure (f a)) = perform calls (.ok (f a)) := by
  have h : (perform calls (.ok a) >>= fun a => pure (f a)) = perform (calls ++ []) (.ok (f a)) :=
    perform_ok_bind (pure_eq (f a))
  rwa [List.append_nil] at h

theorem perform_error_bind {calls : List Call} {e : AccessError} {f : α → Recorded β} :
    perform calls (.error e) >>= f = perform calls (.error e) := rfl

end Recorded

open Recorded

namespace AccessPolicy

variable (policy : AccessPolicy)

/-! ## The composer -/

/-- Translates a selector and confines what it says to one repository. -/
def recordedConfine (repository : String) (s : NamedSelector) : Recorded Expression :=
  perform [.translation s] (confine policy repository s)

def recordedConfineAll (repository : String) (selectors : List NamedSelector) :
    Recorded (List Expression) :=
  (selectors.filter (·.language == .csel)).mapM (recordedConfine policy repository)

/-- What the selectors of repositories say, or `none` when some cannot be looked up. -/
def recordedSelected? (format : String) : List String → Recorded (Option (List Expression))
  | [] => pure (some [])
  | name :: rest => do
    match ← consult (policy.directory.askSelectors [name] [format]) with
    | none => return none
    | some selectors =>
      let here ← recordedConfineAll policy name selectors
      let later ← recordedSelected? format rest
      return later.map (here ++ ·)

/-- The expression of what a user may see, with a record of the calls for it. -/
def recordedCompose (request : AccessRequest) : Recorded Expression := do
  let names ← consult (resolve policy request)
  let visible ← consult (visible policy request.format names)
  let selected ←
    if request.unauthorized then pure none else recordedSelected? policy request.format names
  match visiblePart visible ++ selected.getD [] with
  | [] => throw .noAccess
  | first :: rest => return first.flatten .or rest

/-! ## Its calls -/

/-- The questions that tell the repositories of a request. -/
def naming (request : AccessRequest) : List Question :=
  (match request.scope with
    | .named _ => []
    | .ofFormat => [.namesOfFormat request.format]) ++
  (policy.candidates request).map .repository

/-- The repositories whose selectors are looked up: up to the first that is not clear, and none
without authorization. -/
def consulted (request : AccessRequest) : List String :=
  if request.unauthorized then []
  else through (policy.Clear request.format) (policy.repositories request)

/-- The selectors that are to be translated: up to the first that gives no expression, and none in
another language. -/
def attempted (selectors : List NamedSelector) : List NamedSelector :=
  (through policy.Usable selectors).filter (·.language == .csel)

/-- The calls for one repository's selectors: they are looked up, and then translated. -/
def selectorCalls (format name : String) : List Call :=
  .question (.selectors [name] [format]) ::
    (policy.attempted ((policy.directory.selectors? [name] [format]).getD [])).map .translation

variable {policy} {request : AccessRequest} {format name : String} {names : List String}
  {selectors : List NamedSelector}

theorem exists_confine {s : NamedSelector} (hcsel : s.language = .csel)
    (h : policy.Usable s) (name : String) : ∃ e, confine policy name s = .ok e := by
  obtain ⟨e, he⟩ := h hcsel
  exact ⟨_, by rw [confine, he]⟩

theorem exists_confineAll_eq_error (h : ¬ ∀ s ∈ selectors, policy.Usable s) (name : String) :
    ∃ e, confineAll policy name selectors = .error e := by
  rcases forall_or_exists_reached policy.Usable selectors with hall | ⟨s, hs, hnot⟩
  · exact absurd hall h
  · obtain ⟨cause, hspoils⟩ := (usable_or_spoils policy s).resolve_left hnot
    exact ⟨_, confineAll_of_reached hs hspoils name⟩

theorem not_clear_of_none (h : policy.directory.selectors? [name] [format] = none) :
    ¬ policy.Clear format name := by
  rintro ⟨selectors, hselectors, -⟩
  cases h.symm.trans hselectors

theorem not_clear_of_some (h : policy.directory.selectors? [name] [format] = some selectors)
    (hnot : ¬ ∀ s ∈ selectors, policy.Usable s) : ¬ policy.Clear format name := by
  rintro ⟨selectors', hselectors, hall⟩
  cases h.symm.trans hselectors
  exact hnot hall

theorem recordedConfineAll_eq (policy : AccessPolicy) (name : String)
    (selectors : List NamedSelector) :
    recordedConfineAll policy name selectors =
      perform ((policy.attempted selectors).map .translation)
        (confineAll policy name selectors) := by
  induction selectors with
  | nil => exact pure_eq []
  | cons s rest ih =>
    unfold recordedConfineAll confineAll attempted at ih ⊢
    by_cases hcsel : s.language = .csel
    · have hfilter : ∀ l : List NamedSelector, (s :: l).filter (·.language == .csel) =
          s :: l.filter (·.language == .csel) :=
        fun _ => List.filter_cons_of_pos (by simpa using hcsel)
      rw [hfilter, List.mapM_cons, List.mapM_cons, recordedConfine]
      by_cases husable : policy.Usable s
      · obtain ⟨e, he⟩ := exists_confine hcsel husable name
        rw [through_cons_of_pos husable, hfilter, he]
        refine perform_ok_bind ?_
        rw [ih]
        cases (rest.filter (·.language == .csel)).mapM (confine policy name) with
        | error cause => exact perform_error_bind
        | ok es => exact perform_ok_bind_pure (e :: ·)
      · obtain ⟨cause, hspoils⟩ := (usable_or_spoils policy s).resolve_left husable
        have he : confine policy name s = .error (.selector s.name cause) := by
          rw [confine, hspoils.2]
        rw [through_cons_of_neg husable, hfilter, he]
        exact perform_error_bind
    · -- A selector in another language is passed over, which stops nothing.
      have husable : policy.Usable s := fun h => absurd h hcsel
      have hfilter : ∀ l : List NamedSelector, (s :: l).filter (·.language == .csel) =
          l.filter (·.language == .csel) :=
        fun _ => List.filter_cons_of_neg (by simpa using hcsel)
      rw [through_cons_of_pos husable, hfilter, hfilter, ih]

/-- One repository after the other: those that are clear let the search go on. -/
theorem recordedSelected?_eq (policy : AccessPolicy) (format : String) (names : List String) :
    recordedSelected? policy format names =
      perform ((through (policy.Clear format) names).flatMap (policy.selectorCalls format))
        (selected? policy format names).outcome := by
  induction names with
  | nil => exact pure_eq (some [])
  | cons name rest ih =>
    have hask : consult (policy.directory.askSelectors [name] [format]) =
        perform [.question (.selectors [name] [format])]
          (.ok (policy.directory.selectors? [name] [format])) := rfl
    have houtcome := outcome_selected?_cons policy format name rest
    rw [recordedSelected?, hask]
    cases hselectors : policy.directory.selectors? [name] [format] with
    | none =>
      rw [hselectors] at houtcome
      rw [through_cons_of_neg (not_clear_of_none hselectors), List.flatMap_singleton, selectorCalls,
        hselectors, houtcome]
      exact perform_ok_bind (pure_eq none)
    | some selectors =>
      rw [hselectors] at houtcome
      dsimp only at houtcome
      -- Only a repository that is clear hands over to those after it.
      by_cases hall : ∀ s ∈ selectors, policy.Usable s
      · obtain ⟨here, hhere⟩ := exists_confineAll hall name
        have hlater : (do
            let later ← recordedSelected? policy format rest
            return later.map (here ++ ·)) =
              perform ((through (policy.Clear format) rest).flatMap (policy.selectorCalls format))
                (do
                  let later ← (selected? policy format rest).outcome
                  return later.map (here ++ ·)) := by
          rw [ih]
          cases (selected? policy format rest).outcome with
          | error cause => exact perform_error_bind
          | ok later => exact perform_ok_bind_pure (Option.map (here ++ ·))
        rw [hhere] at houtcome
        rw [through_cons_of_pos ⟨selectors, hselectors, hall⟩, List.flatMap_cons, selectorCalls,
          hselectors, houtcome]
        refine perform_ok_bind ?_
        dsimp only
        rw [recordedConfineAll_eq, hhere]
        exact perform_ok_bind hlater
      · obtain ⟨cause, hcause⟩ := exists_confineAll_eq_error hall name
        rw [hcause] at houtcome
        rw [through_cons_of_neg (not_clear_of_some hselectors hall), List.flatMap_singleton,
          selectorCalls, hselectors, houtcome]
        refine perform_ok_bind ?_
        dsimp only
        rw [recordedConfineAll_eq, hcause]
        exact perform_error_bind

/-! ## The questions of a composer -/

theorem questions_resolve (policy : AccessPolicy) (request : AccessRequest) :
    (resolve policy request).questions = policy.naming request := by
  unfold resolve naming candidates
  cases hscope : request.scope with
  | named names =>
    dsimp only
    rw [questions_bind_of_forall, questions_partKnown]
    · rfl
    · intro parts
      split <;> rfl
  | ofFormat =>
    dsimp only
    have hask : (policy.directory.askNames request.format : Consultation AccessError _).outcome =
        .ok (policy.directory.namesOfFormat request.format) := rfl
    rw [questions_bind_of_ok hask, questions_bind_of_forall fun _ => rfl, questions_partKnown]
    rfl

theorem questions_visible (policy : AccessPolicy) (format : String) (names : List String) :
    (visible policy format names).questions =
      names.map fun n => .permission n format [.browse, .read] := by
  induction names with
  | nil => rfl
  | cons name rest ih =>
    rw [visible, questions_bind_of_ok (Directory.outcome_askPermission _ name format seeing),
      questions_bind_of_forall fun _ => rfl, ih]
    rfl

theorem questions_selected? (policy : AccessPolicy) (format : String) (names : List String) :
    (selected? policy format names).questions =
      (through (policy.Clear format) names).map fun n => .selectors [n] [format] := by
  induction names with
  | nil => rfl
  | cons name rest ih =>
    have hask := policy.directory.outcome_askSelectors (ε := AccessError) [name] [format]
    rw [selected?, questions_bind_of_ok hask]
    cases hselectors : policy.directory.selectors? [name] [format] with
    | none =>
      rw [through_cons_of_neg (not_clear_of_none hselectors)]
      rfl
    | some selectors =>
      dsimp only
      by_cases hall : ∀ s ∈ selectors, policy.Usable s
      · obtain ⟨here, hhere⟩ := exists_confineAll hall name
        have hok : (Consultation.ofExcept (confineAll policy name selectors)).outcome =
            .ok here := hhere
        rw [through_cons_of_pos ⟨selectors, hselectors, hall⟩, questions_bind_of_ok hok,
          questions_bind_of_forall fun _ => rfl, ih]
        rfl
      · obtain ⟨cause, hcause⟩ := exists_confineAll_eq_error hall name
        have herror : (Consultation.ofExcept (confineAll policy name selectors)).outcome =
            .error cause := hcause
        rw [through_cons_of_neg (not_clear_of_some hselectors hall), bind_of_error herror]
        rfl

/-- The questions of a composer, in order. -/
theorem questions_compose (policy : AccessPolicy) (request : AccessRequest) :
    (compose policy request).questions = policy.naming request ++
      if policy.unknownNames request = [] then
        (policy.repositories request).map (fun n =>
          .permission n request.format [.browse, .read]) ++
          (policy.consulted request).map fun n => .selectors [n] [request.format]
      else [] := by
  by_cases hknown : policy.unknownNames request = []
  · have hjoin : ∀ parts : List Expression, (match parts with
        | [] => fail .noAccess
        | first :: rest => pure (first.flatten .or rest) :
          Consultation AccessError Expression).questions = [] := by
      intro parts
      cases parts <;> rfl
    rw [if_pos hknown, compose, questions_bind_of_ok (outcome_resolve hknown),
      questions_bind_of_ok (outcome_visible policy _ _), questions_resolve, questions_visible,
      consulted]
    refine congrArg _ (congrArg _ ?_)
    split
    · exact questions_bind_of_forall fun _ => hjoin _
    · exact (questions_bind_of_forall fun _ => hjoin _).trans (questions_selected? policy _ _)
  · rw [if_neg hknown, compose, bind_of_error (congrArg outcome (resolve_of_unknownNames hknown)),
      questions_resolve, List.append_nil]

/-! ## The calls of a recorded composer -/

theorem recordedJoin_eq (parts : List Expression) :
    (match parts with
      | [] => throw .noAccess
      | first :: rest => pure (first.flatten .or rest) : Recorded Expression) =
      perform [] ((Formula.flatten? .or parts).mapError fun _ => .noAccess) := by
  cases parts with
  | nil => exact throw_eq .noAccess
  | cons first rest => exact pure_eq _

/-- The calls for the selectors of a request, and the join after them. -/
theorem recordedFound?_eq (hknown : policy.unknownNames request = []) :
    (perform ((policy.consulted request).flatMap (policy.selectorCalls request.format))
      (policy.found? request) >>= fun found =>
        match visiblePart (policy.seen request) ++ found.getD [] with
        | [] => throw .noAccess
        | first :: rest => pure (first.flatten .or rest)) =
      perform ((policy.consulted request).flatMap (policy.selectorCalls request.format))
        (compose policy request).outcome := by
  cases hfound : policy.found? request with
  | error e =>
    rw [compose_of_error hknown hfound]
    exact perform_error_bind
  | ok found =>
    rw [compose_of_found hknown hfound]
    exact (perform_ok_bind (recordedJoin_eq _)).trans (by rw [List.append_nil])

theorem recordedCompose_eq (policy : AccessPolicy) (request : AccessRequest) :
    recordedCompose policy request =
      perform ((policy.naming request).map .question ++
        if policy.unknownNames request = [] then
          (policy.repositories request).map (fun n =>
            .question (.permission n request.format [.browse, .read])) ++
            (policy.consulted request).flatMap (policy.selectorCalls request.format)
        else []) (compose policy request).outcome := by
  unfold recordedCompose
  by_cases hknown : policy.unknownNames request = []
  · have hresolve : consult (resolve policy request) =
        perform ((policy.naming request).map .question) (.ok (policy.repositories request)) := by
      rw [consult, outcome_resolve hknown, questions_resolve]
    have hvisible : consult (visible policy request.format (policy.repositories request)) =
        perform ((policy.repositories request).map fun n =>
          .question (.permission n request.format [.browse, .read]))
            (.ok (policy.seen request)) := by
      rw [consult, outcome_visible, questions_visible, List.map_map]
      rfl
    have hjoin := recordedFound?_eq hknown
    rw [if_pos hknown, hresolve]
    refine perform_ok_bind ?_
    rw [hvisible]
    refine perform_ok_bind ?_
    unfold consulted found? at hjoin
    unfold consulted
    dsimp only
    split
    · next hu =>
      rw [if_pos hu, if_pos hu] at hjoin
      rw [pure_eq]
      exact hjoin
    · next hu =>
      rw [if_neg hu, if_neg hu] at hjoin
      rw [recordedSelected?_eq]
      exact hjoin
  · have hresolve : consult (resolve policy request) =
        perform ((policy.naming request).map .question)
          (.error (.unknownRepositories (policy.unknownNames request))) := by
      rw [consult, questions_resolve, resolve_of_unknownNames hknown]
    rw [if_neg hknown, List.append_nil, compose_of_unknownNames hknown, hresolve]
    exact perform_error_bind

/-- Composing asks for names and their repositories. Unless one of them is unknown it goes on to ask
what may be done with each repository, and then, if the request asks for authorization, to look up
the selectors of one repository after the other, up to the first lookup that fails or the first
selector that gives no expression; those of a repository are translated before the next lookup. -/
theorem calls_of_compose (policy : AccessPolicy) (request : AccessRequest) :
    (compose policy request).questions = policy.naming request ++
      (if policy.unknownNames request = [] then
        (policy.repositories request).map (fun n =>
          .permission n request.format [.browse, .read]) ++
          (policy.consulted request).map fun n => .selectors [n] [request.format]
      else []) ∧
    (recordedCompose policy request).run.run [] = ((compose policy request).outcome,
      (policy.naming request).map .question ++
        if policy.unknownNames request = [] then
          (policy.repositories request).map (fun n =>
            .question (.permission n request.format [.browse, .read])) ++
            (policy.consulted request).flatMap (policy.selectorCalls request.format)
        else []) := by
  refine ⟨questions_compose policy request, ?_⟩
  rw [recordedCompose_eq]
  rfl

-- The selector of `a` is translated before the selectors of `b` would be looked up.
example : (recordedCompose ⟨Listing.directory ⟨[⟨"a", "raw"⟩, ⟨"b", "raw"⟩], [], [],
      [⟨"a", none, ⟨"j", .jexl, "true"⟩⟩, ⟨"a", none, ⟨"s", .csel, "colour == 'red'"⟩⟩], []⟩,
      .standard, fun _ => .ok (.comparison "colour" .equal "red")⟩
    ⟨.named ["a", "b"], "raw", false⟩).run.run [] =
      (.error (.selector "s" (.unknownProperty "colour")),
        [.question (.repository "a"), .question (.repository "b"),
          .question (.permission "a" "raw" [.browse, .read]),
          .question (.permission "b" "raw" [.browse, .read]),
          .question (.selectors ["a"] ["raw"]),
          .translation ⟨"s", .csel, "colour == 'red'"⟩]) := rfl

end AccessPolicy

end SearchFilter
