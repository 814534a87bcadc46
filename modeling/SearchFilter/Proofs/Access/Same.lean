import Mathlib.Logic.Relation
import SearchFilter.Proofs.Access.Outcome
import SearchFilter.Proofs.Collection

/-!
# Requests that end alike

What a request comes to is told by its repositories, its format and whether it asks for
authorization: it does not count how the repositories are given, nor how often. When the selectors
of a repository cannot be looked up, authorization makes no difference either, and what the
selectors of earlier repositories say is forgotten.

Main statements: `AccessPolicy.outcome_of_scope` and `AccessPolicy.outcome_of_failing`.
-/

namespace SearchFilter

/-! ## Lists with repetitions -/

section
variable {α : Type} [DecidableEq α]

theorem firstOccurrences_filter (p : α → Bool) (l : List α) :
    firstOccurrences (l.filter p) = (firstOccurrences l).filter p := by
  induction l with
  | nil => rfl
  | cons a l ih =>
    by_cases ha : p a = true
    · rw [List.filter_cons_of_pos ha, firstOccurrences, firstOccurrences,
        List.filter_cons_of_pos ha, ih, List.filter_filter, List.filter_filter]
      simp only [Bool.and_comm]
    · rw [List.filter_cons_of_neg ha, firstOccurrences, List.filter_cons_of_neg ha, ih,
        List.filter_filter]
      refine List.filter_congr fun b _ => ?_
      by_cases hba : b = a
      · rw [hba]
        simp [ha]
      · simp [hba]

theorem firstOccurrences_cons_of_mem {a : α} {before : List α} (h : a ∈ before) (after : List α) :
    firstOccurrences (before ++ a :: after) = firstOccurrences (before ++ after) := by
  induction before with
  | nil => cases h
  | cons b before ih =>
    rw [List.cons_append, List.cons_append, firstOccurrences, firstOccurrences]
    by_cases hb : a = b
    · subst hb
      rw [← firstOccurrences_filter, ← firstOccurrences_filter, List.filter_append,
        List.filter_append, List.filter_cons_of_neg (by simp)]
    · rw [ih (List.mem_of_ne_of_mem hb h)]

end

/-- One list is another one without a member that stands there before. -/
def DropsRepeat {α : Type} (l l' : List α) : Prop :=
  ∃ before a after, a ∈ before ∧ l = before ++ a :: after ∧ l' = before ++ after

namespace AccessPolicy

variable {policy : AccessPolicy} {request request' : AccessRequest} {names names' : List String}

/-! ## Repositories -/

/-- Requests for the same repositories, none of which is unknown, end alike. -/
theorem outcome_eq_of_repositories (hformat : request.format = request'.format)
    (hunauthorized : request.unauthorized = request'.unauthorized)
    (hknown : policy.unknownNames request = []) (hknown' : policy.unknownNames request' = [])
    (hsame : policy.repositories request = policy.repositories request') :
    (compose policy request).outcome = (compose policy request').outcome := by
  refine outcome_congr (hknown.trans hknown'.symm) ?_ fun _ => ?_
  · rw [seen, seen, hformat, hsame]
  · rw [found?, found?, hformat, hunauthorized, hsame]

theorem unknownNames_eq_nil_of_forall {format : String} {unauthorized : Bool}
    (h : ∀ n ∈ names, (policy.directory.repository? n).isSome = true) :
    policy.unknownNames ⟨.named names, format, unauthorized⟩ = [] := by
  refine List.filter_eq_nil_iff.2 fun n hn => ?_
  rw [← Option.not_isSome, h n hn]
  exact Bool.false_ne_true

theorem repositories_of_forall {format : String} {unauthorized : Bool}
    (h : ∀ n ∈ names, (policy.directory.repository? n).isSome = true) :
    policy.repositories ⟨.named names, format, unauthorized⟩ = firstOccurrences names :=
  congrArg firstOccurrences (List.filter_eq_self.2 h)

/-- Dropping repetitions keeps the names and the order in which they first stand. -/
theorem firstOccurrences_of_drops (h : Relation.ReflTransGen DropsRepeat names names') :
    firstOccurrences names = firstOccurrences names' ∧ ∀ n ∈ names', n ∈ names := by
  induction h with
  | refl => exact ⟨rfl, fun _ hn => hn⟩
  | tail _ hstep ih =>
    obtain ⟨before, a, after, ha, rfl, rfl⟩ := hstep
    obtain ⟨hfirst, hsub⟩ := ih
    refine ⟨hfirst.trans (firstOccurrences_cons_of_mem ha after), fun n hn => hsub n ?_⟩
    rw [List.mem_append] at hn ⊢
    exact hn.imp_right (List.mem_cons_of_mem a)

/-- A request for all repositories of its format ends as one that names those of them that are
known. Where all names are known, it does not count which of them are repeated. -/
theorem outcome_of_scope (policy : AccessPolicy) (format : String) (unauthorized : Bool) :
    (compose policy ⟨.ofFormat, format, unauthorized⟩).outcome =
      (compose policy ⟨.named ((policy.directory.namesOfFormat format).filter fun n =>
        (policy.directory.repository? n).isSome), format, unauthorized⟩).outcome ∧
    ∀ names, (∀ n ∈ names, (policy.directory.repository? n).isSome = true) →
      (∀ names', Relation.ReflTransGen DropsRepeat names names' →
        (compose policy ⟨.named names, format, unauthorized⟩).outcome =
          (compose policy ⟨.named names', format, unauthorized⟩).outcome) ∧
      (compose policy ⟨.named names, format, unauthorized⟩).outcome =
        (compose policy ⟨.named (firstOccurrences names), format, unauthorized⟩).outcome := by
  constructor
  · have hknown : ∀ n ∈ (policy.directory.namesOfFormat format).filter fun n =>
        (policy.directory.repository? n).isSome, (policy.directory.repository? n).isSome = true :=
      fun n hn => (List.mem_filter.1 hn).2
    refine outcome_eq_of_repositories rfl rfl rfl (unknownNames_eq_nil_of_forall hknown) ?_
    rw [repositories_of_forall hknown]
    rfl
  · intro names hknown
    have hsame : ∀ names', firstOccurrences names = firstOccurrences names' →
        (∀ n ∈ names', n ∈ names) →
          (compose policy ⟨.named names, format, unauthorized⟩).outcome =
            (compose policy ⟨.named names', format, unauthorized⟩).outcome := by
      intro names' hfirst hsub
      have hknown' : ∀ n ∈ names', (policy.directory.repository? n).isSome = true :=
        fun n hn => hknown n (hsub n hn)
      refine outcome_eq_of_repositories rfl rfl (unknownNames_eq_nil_of_forall hknown)
        (unknownNames_eq_nil_of_forall hknown') ?_
      rw [repositories_of_forall hknown, repositories_of_forall hknown', hfirst]
    constructor
    · intro names' hdrops
      obtain ⟨hfirst, hsub⟩ := firstOccurrences_of_drops hdrops
      exact hsame names' hfirst hsub
    · refine hsame _ ?_ fun n => mem_firstOccurrences.1
      rw [firstOccurrences_of_nodup (nodup_firstOccurrences names)]

/-- The second `a` can be dropped: what its selector says is there once. -/
theorem outcome_of_scope_a_b_a :
    (∀ n ∈ ["a", "b", "a"],
      ((twoRaw [⟨"b", none, [.read]⟩] "a" []).directory.repository? n).isSome = true) ∧
    Relation.ReflTransGen DropsRepeat ["a", "b", "a"] ["a", "b"] ∧
    (compose (twoRaw [⟨"b", none, [.read]⟩] "a" [])
      ⟨.named ["a", "b", "a"], "raw", false⟩).outcome =
    (compose (twoRaw [⟨"b", none, [.read]⟩] "a" []) ⟨.named ["a", "b"], "raw", false⟩).outcome := by
  have hknown : ∀ n ∈ ["a", "b", "a"],
      ((twoRaw [⟨"b", none, [.read]⟩] "a" []).directory.repository? n).isSome = true := by decide
  have hdrops : Relation.ReflTransGen DropsRepeat ["a", "b", "a"] ["a", "b"] :=
    .single ⟨["a", "b"], "a", [], List.mem_cons_self, rfl, rfl⟩
  exact ⟨hknown, hdrops, ((outcome_of_scope _ "raw" false).2 _ hknown).1 _ hdrops⟩

/-! ## Lookups that fail -/

/-- Where the lookup of a repository's selectors fails, and those of the repositories before it can
be looked up and all give expressions, the request ends as it does without authorization. So it
ends, and ended so whatever selectors there are and whatever they say. -/
theorem outcome_of_failing (policy : AccessPolicy) (request : AccessRequest) {name : String}
    (hreached : Reached (policy.Clear request.format) (policy.repositories request) name)
    (hfails : policy.directory.selectors? [name] [request.format] = none) :
    (compose policy request).outcome = (compose policy request.withoutAuthorization).outcome ∧
    ∀ selectors? aliases reader,
      (compose ⟨{ policy.directory with selectors? := selectors? }, aliases, reader⟩
        request.withoutAuthorization).outcome = (compose policy request).outcome := by
  -- A failed lookup leaves no selectors at all, which is what a request without authorization has.
  have hfound : policy.found? request = .ok none := by
    unfold found?
    split
    · rfl
    · exact outcome_selected?_of_failing hreached hfails
  exact ⟨outcome_congr rfl rfl fun _ => hfound,
    fun selectors? aliases reader => outcome_congr rfl rfl fun _ => hfound.symm⟩

/-- What the selector of `a` says is forgotten when the lookup for `b` fails. -/
theorem outcome_of_failing_b :
    Reached (Clear (twoRaw [⟨"a", none, [.browse]⟩] "a" ["b"]) "raw") ["a", "b"] "b" ∧
    (compose (twoRaw [⟨"a", none, [.browse]⟩] "a" ["b"])
      ⟨.named ["a", "b"], "raw", false⟩).outcome =
        .ok (Expression.compare .repository .oneOf (.exactValues ["a"])) := by
  have hreached :
      Reached (Clear (twoRaw [⟨"a", none, [.browse]⟩] "a" ["b"]) "raw") ["a", "b"] "b" := by
    refine ⟨["a"], [], rfl, List.forall_mem_singleton.2 ⟨_, rfl, ?_⟩⟩
    exact List.forall_mem_singleton.2 fun _ => ⟨_, rfl⟩
  have hsame := (outcome_of_failing _ ⟨.named ["a", "b"], "raw", false⟩ hreached rfl).1
  exact ⟨hreached, hsame.trans rfl⟩

end AccessPolicy

end SearchFilter
