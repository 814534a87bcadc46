import Mathlib.Data.List.Basic
import Mathlib.Order.ConditionallyCompleteLattice.Basic
import SearchFilter.Formula

/-!
# Values of formulas

A formula has a value once its atoms have one. The values may come from any lattice: two truth
values, three of them, or sets of rows. A clause has the meet or the join of its children.

Main statements: joining formulas with `flatten` has the value of the clause over them
(`value_flatten`); of propositions, a clause holds when all of its children do, or one of them
(`value_and`, `value_or`).
-/

namespace SearchFilter

namespace Connective

variable {L : Type} [Lattice L]

/-- The operation on values. -/
def apply : Connective → L → L → L
  | and => (· ⊓ ·)
  | or => (· ⊔ ·)

instance (op : Connective) : Std.Associative (op.apply (L := L)) where
  assoc a b c := by
    cases op
    · exact inf_assoc a b c
    · exact sup_assoc a b c

/-- The value of one child or more. -/
def combine (op : Connective) (first : L) (rest : List L) : L := rest.foldl op.apply first

@[simp] theorem combine_nil (op : Connective) (a : L) : op.combine a [] = a := rfl

theorem combine_cons (op : Connective) (a b : L) (l : List L) :
    op.combine a (b :: l) = op.apply a (op.combine b l) := by
  unfold combine
  rw [List.foldl_cons, List.foldl_assoc]

theorem combine_and_iff {p : Prop} {ps : List Prop} : and.combine p ps ↔ p ∧ ∀ q ∈ ps, q := by
  induction ps generalizing p with
  | nil => simp
  | cons q qs ih =>
    rw [combine_cons, List.forall_mem_cons]
    exact and_congr_right fun _ => ih

theorem combine_or_iff {p : Prop} {ps : List Prop} : or.combine p ps ↔ p ∨ ∃ q ∈ ps, q := by
  induction ps generalizing p with
  | nil => simp
  | cons q qs ih =>
    rw [combine_cons, List.exists_mem_cons_iff]
    exact or_congr_right ih

variable {β : Type} {p : β → Prop} {b : β} {bs : List β}

theorem combine_and_map_iff : and.combine (p b) (bs.map p) ↔ ∀ c ∈ b :: bs, p c := by
  rw [combine_and_iff, List.forall_mem_cons, List.forall_mem_map]

theorem combine_or_map_iff : or.combine (p b) (bs.map p) ↔ ∃ c ∈ b :: bs, p c := by
  rw [combine_or_iff, List.exists_mem_cons_iff]
  simp only [List.mem_map, exists_exists_and_eq_and]

end Connective

namespace Formula

variable {α β : Type} {L : Type} [Lattice L]

/-! ## Children -/

/-- What holds of atoms, and of every clause when it holds of its children, holds of every
formula. -/
theorem induct_children {motive : Formula α → Prop} (atom : ∀ a, motive (.atom a))
    (clause : ∀ op first rest, (∀ e ∈ first :: rest, motive e) → motive (.clause op first rest))
    (e : Formula α) : motive e := by
  induction e using induct with
  | atom a => exact atom a
  | clause op first rest hf hr =>
    refine clause op first rest ?_
    rw [List.forall_mem_cons]
    exact ⟨hf, hr⟩

theorem mem_atoms_clause {op : Connective} {first : Formula α} {rest : List (Formula α)} {a : α} :
    a ∈ (clause op first rest).atoms ↔ ∃ e ∈ first :: rest, a ∈ e.atoms := by
  rw [atoms_clause, ← List.flatMap_cons, List.mem_flatMap]

theorem forall_mem_atoms_clause {op : Connective} {first : Formula α} {rest : List (Formula α)}
    {p : α → Prop} :
    (∀ a ∈ (clause op first rest).atoms, p a) ↔ ∀ e ∈ first :: rest, ∀ a ∈ e.atoms, p a := by
  rw [atoms_clause, ← List.flatMap_cons, List.forall_mem_flatMap]

/-! ## Other atoms -/

/-- Replaces the atoms. -/
def map (f : α → β) : Formula α → Formula β := fold (fun a => .atom (f a)) .clause

@[simp] theorem map_atom (f : α → β) (a : α) : map f (.atom a) = .atom (f a) := rfl

@[simp] theorem map_clause (f : α → β) (op : Connective) (first : Formula α)
    (rest : List (Formula α)) :
    map f (.clause op first rest) = .clause op (map f first) (rest.map (map f)) := by
  simp [map]

theorem atoms_map (f : α → β) (e : Formula α) : (map f e).atoms = e.atoms.map f := by
  induction e using induct with
  | atom a => rfl
  | clause op first rest hf hr =>
    rw [map_clause, atoms_clause, atoms_clause, hf, List.map_append, List.flatMap_map,
      List.map_flatMap]
    congr 1
    exact List.flatMap_congr hr

theorem map_map {γ : Type} (f : α → β) (g : β → γ) (e : Formula α) :
    (e.map f).map g = e.map fun a => g (f a) := by
  induction e using induct with
  | atom a => rfl
  | clause op first rest hf hr =>
    rw [map_clause, map_clause, map_clause, hf, List.map_map]
    congr 1
    exact List.map_congr_left hr

theorem map_id (e : Formula α) : e.map (fun a => a) = e := by
  induction e using induct with
  | atom a => rfl
  | clause op first rest hf hr =>
    rw [map_clause, hf, List.map_congr_left (g := id) hr, List.map_id]

theorem fold_map {γ : Type} (leaf : β → γ) (node : Connective → γ → List γ → γ) (f : α → β)
    (e : Formula α) : fold leaf node (e.map f) = fold (fun a => leaf (f a)) node e := by
  induction e using induct with
  | atom a => rfl
  | clause op first rest hf hr =>
    rw [map_clause, fold_clause, fold_clause, hf, List.map_map]
    congr 1
    exact List.map_congr_left hr

theorem fold_congr {γ : Type} {leaf leaf' : α → γ} (node : Connective → γ → List γ → γ)
    {e : Formula α} (h : ∀ a ∈ e.atoms, leaf a = leaf' a) :
    fold leaf node e = fold leaf' node e := by
  induction e using induct_children with
  | atom a => exact h a (by simp)
  | clause op first rest ih =>
    rw [forall_mem_atoms_clause] at h
    have heach : (first :: rest).map (fold leaf node) = (first :: rest).map (fold leaf' node) :=
      List.map_congr_left fun e he => ih e he (h e he)
    rw [List.map_cons, List.map_cons, List.cons.injEq] at heach
    rw [fold_clause, fold_clause, heach.1, heach.2]

/-- What is folded up from traits of the atoms is the same for formulas that differ in nothing
else. -/
theorem fold_eq_of_map_eq {γ δ : Type} [Nonempty γ] {leaf : α → γ} {t : α → δ}
    (hleaf : leaf.FactorsThrough t) (node : Connective → γ → List γ → γ) {e e' : Formula α}
    (h : e.map t = e'.map t) : fold leaf node e = fold leaf node e' := by
  obtain ⟨k, rfl⟩ := (Function.factorsThrough_iff leaf).1 hleaf
  calc fold (k ∘ t) node e = fold k node (e.map t) := (fold_map k node t e).symm
    _ = fold k node (e'.map t) := by rw [h]
    _ = fold (k ∘ t) node e' := fold_map k node t e'

/-! ## Values -/

/-- The value of a formula whose atoms have the values `v`. -/
def value (v : α → L) : Formula α → L := fold v Connective.combine

@[simp] theorem value_atom (v : α → L) (a : α) : value v (.atom a) = v a := rfl

@[simp] theorem value_clause (v : α → L) (op : Connective) (first : Formula α)
    (rest : List (Formula α)) :
    value v (.clause op first rest) = op.combine (value v first) (rest.map (value v)) := by
  simp [value]

/-! ### Propositions -/

theorem value_and {v : α → Prop} {first : Formula α} {rest : List (Formula α)} :
    (clause .and first rest).value v ↔ ∀ e ∈ first :: rest, e.value v := by
  rw [value_clause, Connective.combine_and_map_iff]

theorem value_or {v : α → Prop} {first : Formula α} {rest : List (Formula α)} :
    (clause .or first rest).value v ↔ ∃ e ∈ first :: rest, e.value v := by
  rw [value_clause, Connective.combine_or_map_iff]

theorem value_mono {v w : α → Prop} {e : Formula α} (h : ∀ a ∈ e.atoms, v a → w a)
    (hv : e.value v) : e.value w := by
  induction e using induct_children with
  | atom a => exact h a (by simp) hv
  | clause op first rest ih =>
    rw [forall_mem_atoms_clause] at h
    have heach : ∀ e ∈ first :: rest, e.value v → e.value w := fun e he => ih e he (h e he)
    cases op with
    | and => exact value_and.2 fun e he => heach e he (value_and.1 hv e he)
    | or =>
      obtain ⟨e, he, hev⟩ := value_or.1 hv
      exact value_or.2 ⟨e, he, heach e he hev⟩

/-- A formula all of whose atoms are true. -/
theorem value_of_forall {v : α → Prop} {e : Formula α} (h : ∀ a ∈ e.atoms, v a) : e.value v := by
  induction e using induct_children with
  | atom a => exact h a (by simp)
  | clause op first rest ih =>
    rw [forall_mem_atoms_clause] at h
    have heach : ∀ e ∈ first :: rest, e.value v := fun e he => ih e he (h e he)
    cases op with
    | and => exact value_and.2 heach
    | or => exact value_or.2 ⟨first, by simp, heach first (by simp)⟩

/-- A formula all of whose atoms are false. -/
theorem not_value_of_forall {v : α → Prop} {e : Formula α} (h : ∀ a ∈ e.atoms, ¬ v a) :
    ¬ e.value v := by
  induction e using induct_children with
  | atom a => exact h a (by simp)
  | clause op first rest ih =>
    rw [forall_mem_atoms_clause] at h
    have heach : ∀ e ∈ first :: rest, ¬ e.value v := fun e he => ih e he (h e he)
    cases op with
    | and => exact fun hall => heach first (by simp) (value_and.1 hall first (by simp))
    | or =>
      intro hsome
      obtain ⟨e, he, hev⟩ := value_or.1 hsome
      exact heach e he hev

/-! ### Flattening -/

section
variable {M : Type} {mul : M → M → M} {op : Connective} {φ : Formula α → M}

theorem foldl_join
    (h : ∀ first rest, φ (clause op first rest) = (rest.map φ).foldl mul (φ first))
    (first : Formula α) (rest : List (Formula α)) :
    φ (join op first rest) = (rest.map φ).foldl mul (φ first) := by
  cases rest with
  | nil => rfl
  | cons second rest => exact h first (second :: rest)

theorem foldl_spread
    (h : ∀ first rest, φ (clause op first rest) = (rest.map φ).foldl mul (φ first))
    (e : Formula α) : ((e.spread op).2.map φ).foldl mul (φ (e.spread op).1) = φ e := by
  cases e with
  | atom a => rfl
  | clause p first rest =>
    by_cases hp : p = op
    · rw [spread, if_pos hp, hp, h]
    · rw [spread, if_neg hp]
      rfl

variable [Std.Associative mul]

theorem foldl_operands
    (h : ∀ first rest, φ (clause op first rest) = (rest.map φ).foldl mul (φ first))
    (a : M) (es : List (Formula α)) :
    ((es.flatMap (operands op)).map φ).foldl mul a = (es.map φ).foldl mul a := by
  induction es generalizing a with
  | nil => rfl
  | cons e es ih =>
    rw [List.flatMap_cons, List.map_append, List.foldl_append, ih, operands, List.map_cons,
      List.foldl_cons, List.foldl_assoc, foldl_spread h, List.map_cons, List.foldl_cons]

/-- What clauses of a connective put together from their children, in order and however it is
bracketed, they also put together when they are merged. -/
theorem foldl_flatten
    (h : ∀ first rest, φ (clause op first rest) = (rest.map φ).foldl mul (φ first))
    (first : Formula α) (rest : List (Formula α)) :
    φ (flatten op first rest) = (rest.map φ).foldl mul (φ first) := by
  rw [flatten, foldl_join h, List.map_append, List.foldl_append, foldl_spread h, foldl_operands h]

end

/-- What clauses of a connective have from their children they also have when they are merged. -/
theorem combine_flatten {op q : Connective} {φ : Formula α → L}
    (h : ∀ first rest, φ (clause op first rest) = q.combine (φ first) (rest.map φ))
    (first : Formula α) (rest : List (Formula α)) :
    φ (flatten op first rest) = q.combine (φ first) (rest.map φ) :=
  foldl_flatten h first rest

theorem value_join (v : α → L) (op : Connective) (first : Formula α) (rest : List (Formula α)) :
    (join op first rest).value v = (clause op first rest).value v := by
  rw [value_clause]
  exact foldl_join (value_clause v op) first rest

/-- To merge the clauses of the same connective changes no value. -/
theorem value_flatten (v : α → L) (op : Connective) (first : Formula α)
    (rest : List (Formula α)) :
    (flatten op first rest).value v = (clause op first rest).value v := by
  rw [value_clause, combine_flatten (value_clause v op)]

theorem atoms_join (op : Connective) (first : Formula α) (rest : List (Formula α)) :
    (join op first rest).atoms = (first :: rest).flatMap atoms := by
  cases rest with
  | nil => rw [join, List.flatMap_singleton]
  | cons second rest => exact atoms_clause op first (second :: rest)

theorem flatMap_atoms_operands (op : Connective) (e : Formula α) :
    (e.operands op).flatMap atoms = e.atoms := by
  unfold operands spread
  split
  · split
    · rw [atoms_clause, List.flatMap_cons]
    · exact List.flatMap_singleton _ _
  · rfl

/-- To merge clauses leaves the atoms in their order. -/
theorem atoms_flatten (op : Connective) (first : Formula α) (rest : List (Formula α)) :
    (flatten op first rest).atoms = (first :: rest).flatMap atoms := by
  have hmerged : (spread op first).1 :: ((spread op first).2 ++ rest.flatMap (operands op)) =
      (first :: rest).flatMap (operands op) := rfl
  rw [flatten, atoms_join, hmerged, List.flatMap_assoc]
  exact List.flatMap_congr fun e _ => flatMap_atoms_operands op e

/-- What is merged depends on the parts alone, and not on how they are spread over formulas. -/
theorem flatten_eq_of_operands {op : Connective} {first first' : Formula α}
    {rest rest' : List (Formula α)}
    (h : (first :: rest).flatMap (operands op) = (first' :: rest').flatMap (operands op)) :
    flatten op first rest = flatten op first' rest' := by
  rw [List.flatMap_cons, List.flatMap_cons, operands, operands, List.cons_append, List.cons_append,
    List.cons.injEq] at h
  rw [flatten, flatten, h.1, h.2]

/-- Of two formulas or more a clause over the parts of all of them is made. -/
theorem operands_flatten (op : Connective) (first second : Formula α) (rest : List (Formula α)) :
    (flatten op first (second :: rest)).operands op =
      (first :: second :: rest).flatMap (operands op) := by
  have hclause : flatten op first (second :: rest) = clause op (spread op first).1
      ((spread op first).2 ++ (second :: rest).flatMap (operands op)) := by
    rw [flatten, List.flatMap_cons, operands, List.cons_append]
    cases (spread op first).2 <;> rfl
  rw [hclause, operands, spread, if_pos rfl]
  rfl

theorem flatten_assoc (op : Connective) (a b c : Formula α) :
    (a.flatten op [b]).flatten op [c] = a.flatten op [b.flatten op [c]] := by
  refine flatten_eq_of_operands ?_
  simp only [List.flatMap_cons, List.flatMap_nil, List.append_nil, operands_flatten,
    List.append_assoc]

/-- A property that clauses of a connective have when all of their children have it is one of
merged clauses too. -/
theorem forall_mem_of_flatten {p : Formula α → Prop} {op : Connective}
    (h : ∀ first rest, p (clause op first rest) ↔ ∀ e ∈ first :: rest, p e)
    (first : Formula α) (rest : List (Formula α)) :
    p (flatten op first rest) ↔ ∀ e ∈ first :: rest, p e := by
  have hclause : ∀ first rest, p (clause op first rest) =
      Connective.and.combine (p first) (rest.map p) := fun first rest =>
    propext ((h first rest).trans Connective.combine_and_map_iff.symm)
  rw [combine_flatten hclause, Connective.combine_and_map_iff]

/-- A property that clauses of a connective have when one of their children has it is one of merged
clauses too. -/
theorem exists_mem_of_flatten {p : Formula α → Prop} {op : Connective}
    (h : ∀ first rest, p (clause op first rest) ↔ ∃ e ∈ first :: rest, p e)
    (first : Formula α) (rest : List (Formula α)) :
    p (flatten op first rest) ↔ ∃ e ∈ first :: rest, p e := by
  have hclause : ∀ first rest, p (clause op first rest) =
      Connective.or.combine (p first) (rest.map p) := fun first rest =>
    propext ((h first rest).trans Connective.combine_or_map_iff.symm)
  rw [combine_flatten hclause, Connective.combine_or_map_iff]

end Formula

end SearchFilter
