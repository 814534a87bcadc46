import SearchFilter.Proofs.Compile.Fragment

/-!
# Rejected predicates

What can be wrong with the terms of a predicate, given the column of its field: there are too many
of them, the column does not allow the operand, or one of them is the absent value where a text is
needed. Blank terms do not count, and a predicate has one problem at most.

Main statement: `Predicate.outcome_eq_rejected_iff`.
-/

namespace SearchFilter

namespace Column

/-- What is wrong with an operand and the terms for it. -/
inductive Rejects (d : Dialect) (c : Column) : Operand → List Scalar → Problem → Prop
  | arity {op : Operand} {terms : List Scalar} (hop : op = .eq ∨ op = .notEq ∨ op = .regex)
      (h : 2 ≤ terms.length) : Rejects d c op terms (.arity terms.length)
  | any {terms : List Scalar} (hterms : terms ≠ []) (h : c.fulltext = false) :
      Rejects d c .any terms (.unsupported d.textStrategy)
  | regex {s : Scalar} (h : d = .postgres ∧ c.fulltext = true ∧ c.companion? = none) :
      Rejects d c .regex [s] (.unsupported .regex)
  | regexNull (h : ¬ (d = .postgres ∧ c.fulltext = true ∧ c.companion? = none)) :
      Rejects d c .regex [.null] .nullTerm
  | membership {terms : List Scalar} (h : c.fulltext = false) (hnull : .null ∈ terms) :
      Rejects d c .oneOf terms .nullTerm

variable {d : Dialect} {c : Column} {op : Operand} {first : Scalar} {rest : List Scalar}
  {problem : Problem}

theorem Rejects.ne_nil {terms : List Scalar} (h : c.Rejects d op terms problem) : terms ≠ [] := by
  rintro rfl
  cases h with
  | arity hop h => simp at h
  | any hterms h => exact hterms rfl
  | membership h hnull => cases hnull

/-! ## The ways of comparing -/

theorem search_eq_error_iff {negated : Bool} :
    c.search d negated first rest = .error problem ↔
      c.fulltext = false ∧ .unsupported d.textStrategy = problem := by
  unfold search
  cases c.fulltext with
  | true =>
    rw [if_pos rfl]
    split <;> simp
  | false => simp

theorem texts?_eq_none_iff {l : List Scalar} : texts? l = none ↔ .null ∈ l := by
  induction l with
  | nil => simp [texts?]
  | cons s l ih => cases s <;> simp [texts?, ih]

theorem filterMap_value?_cons_text (p : Pattern) (rest : List Scalar) :
    (Scalar.text p :: rest).filterMap Scalar.value? =
      p.value :: rest.filterMap Scalar.value? := rfl

theorem filterMap_value?_of_texts? {values : List String} (h : texts? rest = some values) :
    rest.filterMap Scalar.value? = values := by
  induction rest generalizing values with
  | nil =>
    cases h
    rfl
  | cons s rest ih =>
    cases s with
    | null => cases h
    | text p =>
      rw [texts?, Option.map_eq_some_iff] at h
      obtain ⟨others, hothers, rfl⟩ := h
      rw [filterMap_value?_cons_text, ih hothers]

theorem membership_eq_error_iff :
    c.membership first rest = .error problem ↔ .null ∈ first :: rest ∧ .nullTerm = problem := by
  rw [List.mem_cons, ← texts?_eq_none_iff]
  unfold membership
  cases first with
  | null => simp
  | text p => cases texts? rest <;> simp

theorem regexColumn?_eq_none_iff :
    c.regexColumn? d = none ↔ d = .postgres ∧ c.fulltext = true ∧ c.companion? = none := by
  unfold regexColumn?
  cases d with
  | postgres => cases c.fulltext <;> simp
  | h2 => simp

/-- A term that is compared as a whole with a text column is a text. -/
theorem fulltext_eq_false_of_null_mem (h : c.comparesWhole first rest = true)
    (hnull : .null ∈ first :: rest) : c.fulltext = false := by
  by_contra hfulltext
  rw [Bool.not_eq_false] at hfulltext
  simp only [comparesWhole, hfulltext, Bool.not_true, Bool.false_or, Bool.and_eq_true,
    List.isEmpty_iff, beq_iff_eq] at h
  obtain ⟨⟨-, rfl⟩, hkind⟩ := h
  rw [← List.mem_singleton.1 hnull] at hkind
  cases hkind

theorem comparesWhole_of_fulltext (h : c.fulltext = false) : c.comparesWhole first rest = true := by
  rw [comparesWhole, h]
  rfl

theorem regex_eq_error_iff :
    c.regex d first = .error problem ↔ c.Rejects d .regex [first] problem := by
  constructor
  · intro h
    unfold regex at h
    split at h
    · next hcolumn =>
      cases h
      exact .regex (regexColumn?_eq_none_iff.1 hcolumn)
    · next hcolumn =>
      cases h
      refine .regexNull fun hnone => ?_
      rw [regexColumn?_eq_none_iff.2 hnone] at hcolumn
      cases hcolumn
    · cases h
  · intro h
    unfold regex
    cases h with
    | arity hop h => simp at h
    | regex h => rw [regexColumn?_eq_none_iff.2 h]
    | regexNull h =>
      obtain ⟨column, hcolumn⟩ :=
        Option.ne_none_iff_exists'.1 (mt regexColumn?_eq_none_iff.1 h)
      rw [hcolumn]

/-! ## Fragments -/

theorem rejects_any_iff {terms : List Scalar} :
    c.Rejects d .any terms problem ↔
      terms ≠ [] ∧ c.fulltext = false ∧ .unsupported d.textStrategy = problem := by
  constructor
  · rintro (⟨hop, -⟩ | ⟨hterms, h⟩ | _ | _ | _)
    · simp at hop
    · exact ⟨hterms, h, rfl⟩
  · rintro ⟨hterms, h, rfl⟩
    exact .any hterms h

theorem rejects_oneOf_iff {terms : List Scalar} :
    c.Rejects d .oneOf terms problem ↔
      c.fulltext = false ∧ .null ∈ terms ∧ .nullTerm = problem := by
  constructor
  · rintro (⟨hop, -⟩ | _ | _ | _ | ⟨h, hnull⟩)
    · simp at hop
    · exact ⟨h, hnull, rfl⟩
  · rintro ⟨h, hnull, rfl⟩
    exact .membership h hnull

theorem rejects_iff_of_single (hop : op = .eq ∨ op = .notEq ∨ op = .regex) {second : Scalar} :
    c.Rejects d op (first :: second :: rest) problem ↔
      .arity (first :: second :: rest).length = problem := by
  constructor
  · rintro (_ | _ | _ | _ | _)
    · rfl
    all_goals simp at hop
  · rintro rfl
    exact .arity hop (by simp)

/-- A single term for `EQ` or `NOT_EQ` is never rejected. -/
theorem not_rejects_single (hop : op = .eq ∨ op = .notEq) {s : Scalar} :
    ¬ c.Rejects d op [s] problem := by
  rintro (⟨-, h⟩ | _ | _ | _ | _)
  · simp at h
  all_goals simp at hop

theorem compared_ne_error {negated : Bool} :
    (if c.comparesWhole first [] then .ok (c.whole negated first)
      else c.search d negated first []) ≠ .error problem := by
  split
  · simp
  · next hwhole =>
    intro hsearch
    exact hwhole (comparesWhole_of_fulltext (search_eq_error_iff.1 hsearch).1)

/-- Terms have no fragment just when something is wrong with them. -/
theorem fragment_eq_error_iff :
    c.fragment d op first rest = .error problem ↔ c.Rejects d op (first :: rest) problem := by
  cases op with
  | any =>
    rw [rejects_any_iff, fragment, search_eq_error_iff]
    exact (and_iff_right (List.cons_ne_nil _ _)).symm
  | oneOf =>
    rw [rejects_oneOf_iff, fragment]
    split
    · next hwhole =>
      rw [membership_eq_error_iff]
      refine ⟨fun h => ⟨fulltext_eq_false_of_null_mem hwhole h.1, h⟩, And.right⟩
    · next hwhole =>
      -- a text column can be searched for any term, so that nothing is wrong on either side
      have hfulltext : c.fulltext ≠ false := mt comparesWhole_of_fulltext hwhole
      rw [search_eq_error_iff]
      exact iff_of_false (fun h => hfulltext h.1) fun h => hfulltext h.1
  | eq =>
    cases rest with
    | nil => exact iff_of_false compared_ne_error (not_rejects_single (.inl rfl))
    | cons second rest => simp [fragment, rejects_iff_of_single]
  | notEq =>
    cases rest with
    | nil => exact iff_of_false compared_ne_error (not_rejects_single (.inr rfl))
    | cons second rest => simp [fragment, rejects_iff_of_single]
  | regex =>
    cases rest with
    | nil => exact regex_eq_error_iff
    | cons second rest => simp [fragment, rejects_iff_of_single]

end Column

namespace Predicate

variable {d : Dialect} {p : Predicate}

/-- What is wrong with a predicate whose field has a column: something is wrong with the terms that
are not blank. -/
def HasProblem (d : Dialect) (p : Predicate) (problem : Problem) : Prop :=
  ∃ c, d.column? p.field = some c ∧ c.Rejects d p.operand p.effective problem

/-- A predicate is rejected just when it has a problem, and with that problem. -/
theorem outcome_eq_rejected_iff {i : Issue} :
    p.outcome d = .rejected i ↔
      ∃ problem, p.HasProblem d problem ∧ i = ⟨p.field, p.operand, problem⟩ := by
  unfold HasProblem outcome
  cases hc : d.column? p.field with
  | none => simp
  | some c =>
    cases he : p.effective with
    | nil =>
      refine iff_of_false (by simp) ?_
      rintro ⟨problem, ⟨c, -, h⟩, -⟩
      exact h.ne_nil rfl
    | cons first rest =>
      simp only [Option.some.injEq, exists_eq_left', ← Column.fragment_eq_error_iff]
      cases c.fragment d p.operand first rest with
      | ok f => simp
      | error problem => simp [eq_comm]

theorem HasProblem.not_dropped {problem : Problem} (h : p.HasProblem d problem) :
    ¬ p.Dropped d := by
  intro hdropped
  have hrejected := outcome_eq_rejected_iff.2 ⟨problem, h, rfl⟩
  rw [outcome_eq_dropped_iff.2 hdropped] at hrejected
  cases hrejected

theorem exists_hasProblem_iff :
    (∃ problem, p.HasProblem d problem) ↔ (p.outcome d).issue? ≠ none := by
  rw [Option.ne_none_iff_exists']
  simp only [Outcome.issue?_eq_some_iff, outcome_eq_rejected_iff]
  exact ⟨fun ⟨problem, h⟩ => ⟨_, problem, h, rfl⟩, fun ⟨_, problem, h, _⟩ => ⟨problem, h⟩⟩

end Predicate

end SearchFilter
