import SearchFilter.Proofs.Sql.Tree

/-!
# Formulas without some of their atoms

What is left of a formula when some of its atoms are taken away: a clause with one child left is
that child, and a clause with none is gone.

Main statements: nothing is left just when every atom is taken away (`sift_eq_none_iff`), and
`map_fold_prune`, a pruned formula has the tree of what is left.
-/

namespace SearchFilter.Formula

variable {α β γ : Type}

/-- The formulas joined, if there are any. -/
def joinAll? (op : Connective) : List (Formula α) → Option (Formula α)
  | [] => none
  | first :: rest => some (join op first rest)

/-- The formula of the atoms that are kept. -/
def sift (keep : α → Prop) [DecidablePred keep] : Formula α → Option (Formula α) :=
  fold (fun a => if keep a then some (.atom a) else none) fun op first rest =>
    joinAll? op ((first :: rest).filterMap id)

section
variable (keep : α → Prop) [DecidablePred keep]

@[simp] theorem sift_atom (a : α) :
    sift keep (.atom a) = if keep a then some (.atom a) else none := rfl

@[simp] theorem sift_clause (op : Connective) (first : Formula α) (rest : List (Formula α)) :
    sift keep (.clause op first rest) =
      joinAll? op ((first :: rest).filterMap (sift keep)) := by
  unfold sift
  rw [fold_clause, List.filterMap_cons, List.filterMap_map, List.filterMap_cons]
  rfl

end

/-! ## What is left -/

theorem joinAll?_eq_none_iff {op : Connective} {es : List (Formula α)} :
    joinAll? op es = none ↔ es = [] := by
  cases es <;> simp [joinAll?]

theorem survivors_eq_none_iff {op : Connective} {es : List (Formula α)} :
    survivors op es = none ↔ es = [] := by
  cases es <;> simp [survivors]

theorem sift_eq_none_iff {keep : α → Prop} [DecidablePred keep] {e : Formula α} :
    sift keep e = none ↔ ∀ a ∈ e.atoms, ¬ keep a := by
  induction e using induct_children with
  | atom a => simp
  | clause op first rest heach =>
    rw [sift_clause, joinAll?_eq_none_iff, List.filterMap_eq_nil_iff, forall_mem_atoms_clause]
    exact forall₂_congr heach

theorem prune_eq_none_iff {keep : α → Option β} {e : Formula α} :
    prune keep e = none ↔ ∀ a ∈ e.atoms, keep a = none := by
  induction e using induct_children with
  | atom a => simp
  | clause op first rest heach =>
    rw [forall_mem_atoms_clause]
    cases rest with
    | nil =>
      rw [prune_single, List.forall_mem_singleton]
      exact heach first List.mem_cons_self
    | cons second rest =>
      rw [prune_clause, survivors_eq_none_iff, List.filterMap_eq_nil_iff]
      exact forall₂_congr heach

/-! ## The atoms that are left -/

theorem atoms_of_survivors {op : Connective} {es : List (Formula α)} {f : Formula α}
    (h : survivors op es = some f) : f.atoms = es.flatMap atoms := by
  cases es with
  | nil => cases h
  | cons first rest =>
    cases h
    rw [atoms_clause, List.flatMap_cons]

theorem flatMap_atoms_filterMap_prune {keep : α → Option β} {es : List (Formula α)}
    (h : ∀ e ∈ es, (prune keep e).toList.flatMap atoms = e.atoms.filterMap keep) :
    (es.filterMap (prune keep)).flatMap atoms = (es.flatMap atoms).filterMap keep := by
  induction es with
  | nil => rfl
  | cons e es ih =>
    rw [List.forall_mem_cons] at h
    rw [List.flatMap_cons, List.filterMap_append, ← h.1, ← ih h.2, ← List.flatMap_append]
    congr 1
    cases hp : prune keep e with
    | none => rw [List.filterMap_cons_none hp]; rfl
    | some f => rw [List.filterMap_cons_some hp]; rfl

theorem flatMap_atoms_prune (keep : α → Option β) (e : Formula α) :
    (prune keep e).toList.flatMap atoms = e.atoms.filterMap keep := by
  induction e using induct_children with
  | atom a => cases h : keep a <;> simp [h]
  | clause op first rest heach =>
    cases rest with
    | nil =>
      rw [List.forall_mem_singleton] at heach
      rw [prune_single, heach, atoms_clause, List.flatMap_nil, List.append_nil]
    | cons second rest =>
      rw [prune_clause, atoms_clause, ← List.flatMap_cons, ← flatMap_atoms_filterMap_prune heach]
      cases hs : survivors op ((first :: second :: rest).filterMap (prune keep)) with
      | none =>
        rw [survivors_eq_none_iff.1 hs]
        rfl
      | some f =>
        rw [Option.toList_some, List.flatMap_singleton, atoms_of_survivors hs]

/-- The atoms of a pruned formula, from left to right. -/
theorem atoms_of_prune {keep : α → Option β} {e : Formula α} {f : Formula β}
    (h : prune keep e = some f) : f.atoms = e.atoms.filterMap keep := by
  rw [← flatMap_atoms_prune, h, Option.toList_some, List.flatMap_singleton]

theorem mem_atoms_of_joinAll? {op : Connective} {es : List (Formula α)} {f : Formula α}
    (h : joinAll? op es = some f) {a : α} (ha : a ∈ f.atoms) : ∃ e ∈ es, a ∈ e.atoms := by
  cases es with
  | nil => cases h
  | cons first rest =>
    cases h
    cases rest with
    | nil => exact ⟨first, List.mem_cons_self, ha⟩
    | cons second rest =>
      exact mem_atoms_clause.1 ha

theorem mem_atoms_of_sift {keep : α → Prop} [DecidablePred keep] {e f : Formula α}
    (h : sift keep e = some f) {a : α} (ha : a ∈ f.atoms) : a ∈ e.atoms ∧ keep a := by
  induction e using induct_children generalizing f with
  | atom b =>
    rw [sift_atom] at h
    split at h
    · next hb =>
      cases h
      rw [atoms_atom, List.mem_singleton] at ha
      subst ha
      exact ⟨by simp, hb⟩
    · cases h
  | clause op first rest ih =>
    rw [sift_clause] at h
    obtain ⟨g, hg, hag⟩ := mem_atoms_of_joinAll? h ha
    obtain ⟨e, he, heg⟩ := List.mem_filterMap.1 hg
    obtain ⟨hmem, hkeep⟩ := ih e he heg hag
    exact ⟨mem_atoms_clause.2 ⟨e, he, hmem⟩, hkeep⟩

/-! ## Other atoms -/

theorem map_survivors_map (g : β → γ) (op : Connective) (es : List (Formula β)) :
    (survivors op es).map (map g) = survivors op (es.map (map g)) := by
  cases es with
  | nil => rfl
  | cons first rest => exact congrArg some (map_clause g op first rest)

theorem map_prune (g : β → γ) (keep : α → Option β) (e : Formula α) :
    (e.prune keep).map (map g) = e.prune fun a => (keep a).map g := by
  induction e using induct_children with
  | atom a => cases h : keep a <;> simp [h]
  | clause op first rest heach =>
    cases rest with
    | nil =>
      rw [prune_single, prune_single]
      exact heach first List.mem_cons_self
    | cons second rest =>
      rw [prune_clause, prune_clause, map_survivors_map, List.map_filterMap]
      exact congrArg (survivors op) (List.filterMap_congr heach)

/-! ## Trees -/

theorem graft_join (leaf : α → Sql.Tree γ) (op : Connective) (first : Formula α)
    (rest : List (Formula α)) :
    Sql.Tree.graft leaf (join op first rest) =
      .join op (Sql.Tree.graft leaf first) (rest.map (Sql.Tree.graft leaf)) := by
  cases rest with
  | nil => rfl
  | cons second rest => exact Sql.Tree.graft_clause leaf op first (second :: rest)

theorem map_survivors {leaf : β → Sql.Tree γ} {leaf' : α → Sql.Tree γ} {op : Connective}
    {fs : List (Formula β)} {gs : List (Formula α)}
    (h : fs.map (fold leaf Sql.Tree.join) = gs.map (Sql.Tree.graft leaf')) :
    (survivors op fs).map (fold leaf Sql.Tree.join) =
      (joinAll? op gs).map (Sql.Tree.graft leaf') := by
  cases fs with
  | nil =>
    rw [List.map_nil, eq_comm, List.map_eq_nil_iff] at h
    rw [h]
    rfl
  | cons f fs =>
    cases gs with
    | nil => cases h
    | cons g gs =>
      rw [List.map_cons, List.map_cons, List.cons.injEq] at h
      rw [survivors, joinAll?, Option.map_some, Option.map_some, fold_clause, graft_join, h.1, h.2]

theorem map_filterMap_congr {δ : Type} {f : α → Option β} {g : α → Option γ} {m : β → δ}
    {n : γ → δ} {l : List α} (h : ∀ a ∈ l, (f a).map m = (g a).map n) :
    (l.filterMap f).map m = (l.filterMap g).map n := by
  rw [List.map_filterMap, List.map_filterMap]
  exact List.filterMap_congr h

/-- A pruned formula, read without the clauses around single children, has the tree of what is
left. -/
theorem map_fold_prune {keep : α → Option β} {kept : α → Prop} [DecidablePred kept]
    {leaf : β → Sql.Tree γ} {leaf' : α → Sql.Tree γ} {e : Formula α}
    (hnone : ∀ a ∈ e.atoms, ¬ kept a → keep a = none)
    (hsome : ∀ a ∈ e.atoms, kept a → (keep a).map leaf = some (leaf' a)) :
    (e.prune keep).map (fold leaf Sql.Tree.join) = (e.sift kept).map (Sql.Tree.graft leaf') := by
  induction e using induct_children with
  | atom a =>
    rw [prune_atom, sift_atom, Option.map_map]
    split
    · next h => exact hsome a (by simp) h
    · next h =>
      rw [hnone a (by simp) h]
      rfl
  | clause op first rest ih =>
    rw [forall_mem_atoms_clause] at hnone hsome
    have heach : ∀ e ∈ first :: rest, (e.prune keep).map (fold leaf Sql.Tree.join) =
        (e.sift kept).map (Sql.Tree.graft leaf') :=
      fun e he => ih e he (hnone e he) (hsome e he)
    rw [sift_clause]
    cases rest with
    | nil =>
      rw [List.forall_mem_singleton] at heach
      rw [prune_single, heach, List.filterMap_cons, List.filterMap_nil]
      cases first.sift kept <;> rfl
    | cons second rest =>
      rw [prune_clause]
      exact map_survivors (map_filterMap_congr heach)

/-! ## Values -/

/-- With every atom kept, what is left of a formula has its value. -/
theorem map_value_sift {L : Type} [Lattice L] {v : α → L} {keep : α → Prop} [DecidablePred keep]
    {e : Formula α} (h : ∀ a ∈ e.atoms, keep a) :
    (e.sift keep).map (value v) = some (e.value v) := by
  induction e using induct_children with
  | atom a =>
    rw [sift_atom, if_pos (h a (by simp))]
    rfl
  | clause op first rest ih =>
    rw [forall_mem_atoms_clause] at h
    have heach : ((first :: rest).filterMap (sift keep)).map (value v) =
        ((first :: rest).filterMap some).map (value v) :=
      map_filterMap_congr fun e he => ih e he (h e he)
    rw [List.filterMap_some] at heach
    rw [sift_clause]
    cases hleft : (first :: rest).filterMap (sift keep) with
    | nil =>
      rw [hleft] at heach
      cases heach
    | cons s ss =>
      rw [hleft, List.map_cons, List.map_cons, List.cons.injEq] at heach
      rw [joinAll?, Option.map_some, value_join, value_clause, value_clause, heach.1, heach.2]

end SearchFilter.Formula
