import SearchFilter.Proofs.Formula.Remaining

/-!
# Formulas that ignore some of their atoms

When some atoms of a formula are ignored, what is left of it may be true where the formula itself is
not. An ignored disjunct only makes the rest harder to satisfy; an ignored conjunct is taken to be
true.

Main statement: `failsClosed_iff`, nothing more is admitted just when something is left and no
conjunction loses some of its children and keeps others.
-/

namespace SearchFilter.Formula

variable {α β : Type}

section
variable (ignored : α → Prop)

/-- Nothing is left of a formula. -/
def Vanishes (e : Formula α) : Prop := ∀ a ∈ e.atoms, ignored a

/-- What is left of a formula is true, or nothing is left. -/
def Admits [DecidablePred ignored] (v : α → Prop) (e : Formula α) : Prop :=
  ∀ f, e.sift (fun a => ¬ ignored a) = some f → f.value v

/-- In every conjunction of a formula all children vanish, or none does. -/
inductive KeepsConjuncts : Formula α → Prop
  | atom (a : α) : KeepsConjuncts (.atom a)
  | or {first : Formula α} {rest : List (Formula α)}
      (each : ∀ e ∈ first :: rest, KeepsConjuncts e) : KeepsConjuncts (.clause .or first rest)
  | and {first : Formula α} {rest : List (Formula α)}
      (each : ∀ e ∈ first :: rest, KeepsConjuncts e)
      (all : (∀ e ∈ first :: rest, e.Vanishes ignored) ∨
        ∀ e ∈ first :: rest, ¬ e.Vanishes ignored) : KeepsConjuncts (.clause .and first rest)

/-- However truth values are given to the occurrences of atoms, what is left is no more often true
than the formula. -/
def FailsClosed [DecidablePred ignored] (e : Formula α) : Prop :=
  ∀ E : Formula (α × Prop), E.map Prod.fst = e →
    E.Admits (fun x => ignored x.1) Prod.snd → E.value Prod.snd

end

variable {ignored : α → Prop} {v : α → Prop} {op : Connective} {e first : Formula α}
  {rest : List (Formula α)}

/-! ## Clauses -/

theorem vanishes_clause :
    (clause op first rest).Vanishes ignored ↔ ∀ e ∈ first :: rest, e.Vanishes ignored := by
  unfold Vanishes
  rw [forall_mem_atoms_clause]

theorem value_of_joinAll?_or {es : List (Formula α)} {f : Formula α}
    (h : joinAll? .or es = some f) : f.value v ↔ ∃ e ∈ es, e.value v := by
  cases es with
  | nil => cases h
  | cons first rest =>
    cases h
    rw [value_join, value_or]

section
variable [DecidablePred ignored]

theorem sift_eq_none_iff_vanishes :
    e.sift (fun a => ¬ ignored a) = none ↔ e.Vanishes ignored := by
  rw [sift_eq_none_iff]
  simp only [not_not, Vanishes]

theorem admits_of_vanishes (h : e.Vanishes ignored) : e.Admits ignored v := by
  intro f hf
  rw [sift_eq_none_iff_vanishes.2 h] at hf
  cases hf

theorem admits_atom {a : α} : (atom a).Admits ignored v ↔ (¬ ignored a → v a) := by
  unfold Admits
  rw [sift_atom]
  by_cases h : ignored a <;> simp [h]

theorem admits_iff_remaining : e.Admits ignored v ↔ e.remaining ignored v := by
  unfold Admits remaining
  cases e.sift fun a => ¬ ignored a with
  | none => simp
  | some f => simp

theorem admits_and :
    (clause .and first rest).Admits ignored v ↔ ∀ e ∈ first :: rest, e.Admits ignored v := by
  rw [admits_iff_remaining, remaining_and, Connective.combine_and_map_iff]
  exact forall₂_congr fun e _ => admits_iff_remaining.symm

theorem admits_or :
    (clause .or first rest).Admits ignored v ↔
      (∀ e ∈ first :: rest, e.Vanishes ignored) ∨
        ∃ e ∈ first :: rest, ¬ e.Vanishes ignored ∧ e.Admits ignored v := by
  unfold Admits
  rw [sift_clause]
  constructor
  · intro h
    by_cases hnil : (first :: rest).filterMap (sift fun a => ¬ ignored a) = []
    · left
      rw [List.filterMap_eq_nil_iff] at hnil
      exact fun e he => sift_eq_none_iff_vanishes.1 (hnil e he)
    · right
      have hleft : joinAll? .or ((first :: rest).filterMap (sift fun a => ¬ ignored a)) ≠ none :=
        mt joinAll?_eq_none_iff.1 hnil
      obtain ⟨g, hg⟩ := Option.ne_none_iff_exists'.1 hleft
      obtain ⟨f, hmem, hf⟩ := (value_of_joinAll?_or hg).1 (h g hg)
      obtain ⟨e, he, hef⟩ := List.mem_filterMap.1 hmem
      refine ⟨e, he, fun hv => ?_, fun f' hf' => ?_⟩
      · rw [sift_eq_none_iff_vanishes.2 hv] at hef
        cases hef
      · rw [hef, Option.some.injEq] at hf'
        exact hf' ▸ hf
  · rintro (hall | ⟨e, he, hleft, hadmits⟩) g hg
    · have hnil : (first :: rest).filterMap (sift fun a => ¬ ignored a) = [] :=
        List.filterMap_eq_nil_iff.2 fun e he => sift_eq_none_iff_vanishes.2 (hall e he)
      rw [hnil] at hg
      cases hg
    · obtain ⟨f, hf⟩ := Option.ne_none_iff_exists'.1 (mt sift_eq_none_iff_vanishes.1 hleft)
      exact (value_of_joinAll?_or hg).2 ⟨f, List.mem_filterMap.2 ⟨e, he, hf⟩, hadmits f hf⟩

/-! ## Formulas that keep their conjuncts -/

/-- What is left admits no more than the formula where conjunctions stay whole. -/
theorem KeepsConjuncts.value_of_admits (h : e.KeepsConjuncts ignored)
    (hleft : ¬ e.Vanishes ignored) (ha : e.Admits ignored v) : e.value v := by
  induction h with
  | atom a =>
    rw [admits_atom] at ha
    refine ha fun hignored => hleft fun b hb => ?_
    rw [atoms_atom, List.mem_singleton] at hb
    exact hb ▸ hignored
  | or each ih =>
    rw [vanishes_clause] at hleft
    rcases admits_or.1 ha with hall | ⟨e, he, hleft', ha'⟩
    · exact absurd hall hleft
    · exact value_or.2 ⟨e, he, ih e he hleft' ha'⟩
  | and each all ih =>
    rw [vanishes_clause] at hleft
    rcases all with hall | hnone
    · exact absurd hall hleft
    · exact value_and.2 fun e he => ih e he (hnone e he) (admits_and.1 ha e he)

end

theorem keepsConjuncts_of_vanishes (h : e.Vanishes ignored) : e.KeepsConjuncts ignored := by
  induction e using induct_children with
  | atom a => exact .atom a
  | clause op first rest ih =>
    rw [vanishes_clause] at h
    have heach : ∀ e ∈ first :: rest, e.KeepsConjuncts ignored := fun e he => ih e he (h e he)
    cases op with
    | or => exact .or heach
    | and => exact .and heach (.inl h)

/-- Where what is left is true, so is the formula when the ignored atoms count as true. -/
theorem value_of_admits [DecidablePred ignored] (h : e.Admits ignored v) :
    e.value fun a => ignored a ∨ v a := by
  induction e using induct_children with
  | atom a => exact or_iff_not_imp_left.2 (admits_atom.1 h)
  | clause op first rest heach =>
    cases op with
    | and => exact value_and.2 fun e he => heach e he (admits_and.1 h e he)
    | or =>
      rcases admits_or.1 h with hall | ⟨e, he, -, ha⟩
      · have hfirst : first.value fun a => ignored a ∨ v a :=
          value_of_forall fun a ha => .inl (hall first (by simp) a ha)
        exact value_or.2 ⟨first, by simp, hfirst⟩
      · exact value_or.2 ⟨e, he, heach e he ha⟩

/-! ## Truth values for occurrences -/

/-- The same truth value for every occurrence of an atom. -/
def assign (b : Prop) (e : Formula α) : Formula (α × Prop) := e.map (·, b)

theorem map_fst_assign (b : Prop) (e : Formula α) : (assign b e).map Prod.fst = e := by
  rw [assign, map_map, map_id]

theorem snd_of_mem_assign {b : Prop} {x : α × Prop} (h : x ∈ (assign b e).atoms) : x.2 = b := by
  rw [assign, atoms_map] at h
  obtain ⟨a, -, rfl⟩ := List.mem_map.1 h
  rfl

theorem not_value_assign_false : ¬ (assign False e).value Prod.snd := by
  refine not_value_of_forall fun x hx => ?_
  rw [snd_of_mem_assign hx]
  exact not_false

theorem vanishes_map {f : β → α} {e : Formula β} :
    e.Vanishes (fun b => ignored (f b)) ↔ (e.map f).Vanishes ignored := by
  unfold Vanishes
  rw [atoms_map, List.forall_mem_map]

theorem keepsConjuncts_of_map {f : β → α} {e : Formula β}
    (h : (e.map f).KeepsConjuncts ignored) : e.KeepsConjuncts fun b => ignored (f b) := by
  induction e using induct_children with
  | atom b => exact .atom b
  | clause op first rest ih =>
    rw [map_clause] at h
    have heach : (∀ e ∈ first.map f :: rest.map (map f), e.KeepsConjuncts ignored) →
        ∀ e ∈ first :: rest, e.KeepsConjuncts fun b => ignored (f b) := by
      rw [← List.map_cons, List.forall_mem_map]
      exact fun h e he => ih e he (h e he)
    cases h with
    | or each => exact .or (heach each)
    | and each all =>
      rw [← List.map_cons, List.forall_mem_map, List.forall_mem_map] at all
      simp only [← vanishes_map] at all
      exact .and (heach each) all

/-- Truth values for the occurrences in the children of a clause are some for the clause. -/
theorem map_fst_clause {F : Formula α → Formula (α × Prop)} (hF : ∀ e, (F e).map Prod.fst = e)
    (op : Connective) (first : Formula α) (rest : List (Formula α)) :
    (clause op (F first) (rest.map F)).map Prod.fst = clause op first rest := by
  have hrest : rest.map (map Prod.fst ∘ F) = rest := List.map_id'' hF rest
  rw [map_clause, hF, List.map_map, hrest]

open Classical in
/-- Given truth values for one child, and one truth value for all others. -/
noncomputable def assignAt (e : Formula α) (E : Formula (α × Prop)) (b : Prop) (f : Formula α) :
    Formula (α × Prop) := if f = e then E else assign b f

theorem map_fst_assignAt {e : Formula α} {E : Formula (α × Prop)} (hE : E.map Prod.fst = e)
    (b : Prop) (f : Formula α) : (assignAt e E b f).map Prod.fst = f := by
  unfold assignAt
  split
  · next h => rw [hE, h]
  · exact map_fst_assign b f

theorem assignAt_self (e : Formula α) (E : Formula (α × Prop)) (b : Prop) :
    assignAt e E b e = E := if_pos rfl

theorem assignAt_cases {p : Formula (α × Prop) → Prop} {e : Formula α} {E : Formula (α × Prop)}
    {b : Prop} (hE : p E) (h : ∀ f, p (assign b f)) (f : Formula α) : p (assignAt e E b f) := by
  unfold assignAt
  split
  · exact hE
  · exact h f

section
variable [DecidablePred ignored]

theorem admits_assign_true : (assign True e).Admits (fun x => ignored x.1) Prod.snd := by
  intro f hf
  refine value_of_forall fun x hx => ?_
  rw [snd_of_mem_assign (mem_atoms_of_sift hf hx).1]
  trivial

/-- A child that admits more than itself makes its clause do so: the other children are true in a
conjunction, and false in a disjunction. -/
theorem exists_admits_of_child {E : Formula (α × Prop)} (he : e ∈ first :: rest)
    (hE : E.map Prod.fst = e) (hleft : ¬ e.Vanishes ignored)
    (ha : E.Admits (fun x => ignored x.1) Prod.snd) (hvalue : ¬ E.value Prod.snd) :
    ∃ C : Formula (α × Prop), C.map Prod.fst = clause op first rest ∧
      C.Admits (fun x => ignored x.1) Prod.snd ∧ ¬ C.value Prod.snd := by
  have hmem : ∀ b, E ∈ assignAt e E b first :: rest.map (assignAt e E b) := by
    intro b
    rw [← List.map_cons]
    exact List.mem_map.2 ⟨e, he, assignAt_self e E b⟩
  cases op with
  | and =>
    refine ⟨_, map_fst_clause (map_fst_assignAt hE True) .and first rest, admits_and.2 ?_,
      fun hall => hvalue (value_and.1 hall E (hmem True))⟩
    rw [← List.map_cons, List.forall_mem_map]
    exact fun f _ => assignAt_cases ha (fun _ => admits_assign_true) f
  | or =>
    rw [← hE, ← vanishes_map] at hleft
    refine ⟨_, map_fst_clause (map_fst_assignAt hE False) .or first rest,
      admits_or.2 (.inr ⟨E, hmem False, hleft, ha⟩), fun hsome => ?_⟩
    obtain ⟨G, hG, hGvalue⟩ := value_or.1 hsome
    rw [← List.map_cons] at hG
    obtain ⟨f, -, rfl⟩ := List.mem_map.1 hG
    exact assignAt_cases (p := fun G => ¬ G.value Prod.snd) hvalue
      (fun _ => not_value_assign_false) f hGvalue

/-- A conjunction that loses one child and keeps another is true without the one. -/
theorem exists_admits_of_lost {lost : Formula α} (he : lost ∈ first :: rest)
    (hlost : lost.Vanishes ignored) :
    ∃ C : Formula (α × Prop), C.map Prod.fst = clause .and first rest ∧
      C.Admits (fun x => ignored x.1) Prod.snd ∧ ¬ C.value Prod.snd := by
  have hF := map_fst_assignAt (map_fst_assign False lost) True
  have hmem : assign False lost ∈ assignAt lost (assign False lost) True first ::
      rest.map (assignAt lost (assign False lost) True) := by
    rw [← List.map_cons]
    exact List.mem_map.2 ⟨lost, he, assignAt_self lost _ True⟩
  refine ⟨_, map_fst_clause hF .and first rest, admits_and.2 ?_,
    fun hall => not_value_assign_false (value_and.1 hall _ hmem)⟩
  have hvanish : (assign False lost).Vanishes fun x => ignored x.1 := by
    rwa [vanishes_map, map_fst_assign]
  rw [← List.map_cons, List.forall_mem_map]
  exact fun f _ => assignAt_cases (admits_of_vanishes hvanish) (fun _ => admits_assign_true) f

/-- A formula that loses a conjunct admits more than itself. -/
theorem exists_admits_not_value (h : ¬ e.KeepsConjuncts ignored) :
    ∃ E : Formula (α × Prop), E.map Prod.fst = e ∧ E.Admits (fun x => ignored x.1) Prod.snd ∧
      ¬ E.value Prod.snd := by
  induction e using induct_children with
  | atom a => exact absurd (.atom a) h
  | clause op first rest ih =>
    by_cases hchild : ∃ e ∈ first :: rest, ¬ e.KeepsConjuncts ignored
    · obtain ⟨e, he, hnot⟩ := hchild
      obtain ⟨E, hE, ha, hvalue⟩ := ih e he hnot
      exact exists_admits_of_child he hE (mt keepsConjuncts_of_vanishes hnot) ha hvalue
    · have heach : ∀ e ∈ first :: rest, e.KeepsConjuncts ignored := fun e he =>
        by_contra fun hnot => hchild ⟨e, he, hnot⟩
      cases op with
      | or => exact absurd (.or heach) h
      | and =>
        obtain ⟨lost, he, hlost⟩ : ∃ e ∈ first :: rest, e.Vanishes ignored :=
          by_contra fun hno => h (.and heach (.inr fun e he hv => hno ⟨e, he, hv⟩))
        exact exists_admits_of_lost he hlost

/-- What is left admits no more than the formula, whatever the truth values, just when something is
left and conjunctions stay whole or vanish. -/
theorem failsClosed_iff :
    e.FailsClosed ignored ↔ ¬ e.Vanishes ignored ∧ e.KeepsConjuncts ignored := by
  constructor
  · intro h
    constructor
    · intro hv
      have hassign : (assign False e).Vanishes fun x => ignored x.1 := by
        rwa [vanishes_map, map_fst_assign]
      exact not_value_assign_false (h _ (map_fst_assign False e) (admits_of_vanishes hassign))
    · by_contra hnot
      obtain ⟨E, hE, ha, hvalue⟩ := exists_admits_not_value hnot
      exact hvalue (h E hE ha)
  · rintro ⟨hleft, hkeeps⟩ E rfl ha
    rw [← vanishes_map] at hleft
    exact (keepsConjuncts_of_map hkeeps).value_of_admits hleft ha

end

/-! ## Clauses that are merged -/

theorem vanishes_flatten :
    (flatten op first rest).Vanishes ignored ↔ ∀ e ∈ first :: rest, e.Vanishes ignored :=
  forall_mem_of_flatten (fun _ _ => vanishes_clause) first rest

theorem admits_flatten_and [DecidablePred ignored] :
    (flatten .and first rest).Admits ignored v ↔ ∀ e ∈ first :: rest, e.Admits ignored v :=
  forall_mem_of_flatten (fun _ _ => admits_and) first rest

/-- What is left of a disjunction that does not vanish is true where what is left of one of its
parts is. -/
theorem admits_flatten_or [DecidablePred ignored]
    (hleft : ¬ (flatten .or first rest).Vanishes ignored) :
    (flatten .or first rest).Admits ignored v ↔
      ∃ e ∈ first :: rest, ¬ e.Vanishes ignored ∧ e.Admits ignored v := by
  refine (and_iff_right hleft).symm.trans (exists_mem_of_flatten
    (p := fun e => ¬ e.Vanishes ignored ∧ e.Admits ignored v) (fun first rest => ?_) first rest)
  rw [admits_or, vanishes_clause]
  constructor
  · rintro ⟨hsome, hall | hadmits⟩
    · exact absurd hall hsome
    · exact hadmits
  · rintro ⟨e, he, hleft, ha⟩
    exact ⟨fun hall => hleft (hall e he), .inr ⟨e, he, hleft, ha⟩⟩

theorem keepsConjuncts_flatten_or :
    (flatten .or first rest).KeepsConjuncts ignored ↔
      ∀ e ∈ first :: rest, e.KeepsConjuncts ignored := by
  refine forall_mem_of_flatten (fun first rest => ?_) first rest
  constructor
  · intro h
    cases h with
    | or each => exact each
  · exact .or

section
variable [DecidablePred ignored]

theorem failsClosed_and :
    (clause .and first rest).FailsClosed ignored ↔
      ∀ e ∈ first :: rest, e.FailsClosed ignored := by
  simp only [failsClosed_iff, vanishes_clause]
  constructor
  · rintro ⟨hleft, h⟩
    cases h with
    | and each all =>
      have hnone := all.resolve_left hleft
      exact fun e he => ⟨hnone e he, each e he⟩
  · intro h
    have hkeeps : ∀ e ∈ first :: rest, e.KeepsConjuncts ignored := fun e he => (h e he).2
    have hleft : ∀ e ∈ first :: rest, ¬ e.Vanishes ignored := fun e he => (h e he).1
    constructor
    · intro hall
      exact hleft first (by simp) (hall first (by simp))
    · exact .and hkeeps (.inr hleft)

theorem failsClosed_flatten_and :
    (flatten .and first rest).FailsClosed ignored ↔ ∀ e ∈ first :: rest, e.FailsClosed ignored :=
  forall_mem_of_flatten (fun _ _ => failsClosed_and) first rest

/-- A disjunction of formulas none of which vanishes. -/
theorem failsClosed_flatten_or (h : ∀ e ∈ first :: rest, ¬ e.Vanishes ignored) :
    (flatten .or first rest).FailsClosed ignored ↔ ∀ e ∈ first :: rest, e.FailsClosed ignored := by
  rw [failsClosed_iff, vanishes_flatten, keepsConjuncts_flatten_or]
  constructor
  · rintro ⟨-, hkeeps⟩ e he
    exact failsClosed_iff.2 ⟨h e he, hkeeps e he⟩
  · intro hclosed
    constructor
    · intro hall
      exact h first (by simp) (hall first (by simp))
    · intro e he
      exact (failsClosed_iff.1 (hclosed e he)).2

theorem failsClosed_atom {a : α} : (atom a).FailsClosed ignored ↔ ¬ ignored a := by
  rw [failsClosed_iff]
  have hvanishes : (atom a).Vanishes ignored ↔ ignored a := by simp [Vanishes]
  rw [hvanishes]
  exact and_iff_left (.atom a)

end

end SearchFilter.Formula
