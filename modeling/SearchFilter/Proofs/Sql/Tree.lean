import SearchFilter.Proofs.Formula.Value
import SearchFilter.Proofs.Sql.Truth

/-!
# Logical trees

What is left of a condition when only its logic counts: comparisons, negations, and clauses of two
parts or more. Trees are read off texts, and they are compared with formulas by `graft`, which
puts a tree in the place of every atom.

Main statements: a grafted tree has the value of the formula whose atoms have the values of their
trees (`value_graft`); what `graft` puts together can be taken apart (`exists_graftedBy`).
-/

namespace SearchFilter.Sql

/-- A condition over comparisons of any kind. -/
inductive Tree (β : Type) where
  | atom (b : β)
  | not (t : Tree β)
  | clause (op : Connective) (first : Tree β) (rest : List (Tree β))

namespace Tree

variable {α β γ : Type}

/-! ## Recursion and induction -/

section
variable (leaf : β → γ) (neg : γ → γ) (node : Connective → γ → List γ → γ)

mutual

/-- Replaces each node by what stands for it, from the bottom up. -/
def fold : Tree β → γ
  | .atom b => leaf b
  | .not t => neg (fold t)
  | .clause op first rest => node op (fold first) (foldEach rest)

/-- The values of several trees, in order. -/
def foldEach : List (Tree β) → List γ
  | [] => []
  | t :: rest => fold t :: foldEach rest

end

theorem foldEach_eq_map (ts : List (Tree β)) :
    foldEach leaf neg node ts = ts.map (fold leaf neg node) := by
  induction ts with
  | nil => rfl
  | cons t ts ih => rw [foldEach, ih, List.map_cons]

theorem fold_clause (op : Connective) (first : Tree β) (rest : List (Tree β)) :
    fold leaf neg node (.clause op first rest) =
      node op (fold leaf neg node first) (rest.map (fold leaf neg node)) := by
  rw [fold, foldEach_eq_map]

end

/-- What holds of comparisons, and of every other tree when it holds of its parts, holds of every
tree. -/
theorem induct {motive : Tree β → Prop} (atom : ∀ b, motive (.atom b))
    (not : ∀ t, motive t → motive (.not t))
    (clause : ∀ op first rest, motive first → (∀ t ∈ rest, motive t) →
      motive (.clause op first rest)) (t : Tree β) : motive t :=
  Tree.rec (motive_1 := motive) (motive_2 := fun ts => ∀ t ∈ ts, motive t)
    atom not (fun op first rest hf hr => clause op first rest hf hr)
    (by simp) (fun t ts ht hts => by simpa using ⟨ht, hts⟩) t

/-! ## Operations -/

/-- The clause over one tree or more, which is that tree if there is no other. -/
def join (op : Connective) (first : Tree β) : List (Tree β) → Tree β
  | [] => first
  | second :: rest => .clause op first (second :: rest)

/-- Replaces the comparisons. -/
def map (f : β → γ) : Tree β → Tree γ := fold (fun b => .atom (f b)) .not .clause

@[simp] theorem map_atom (f : β → γ) (b : β) : map f (.atom b) = .atom (f b) := rfl

@[simp] theorem map_not (f : β → γ) (t : Tree β) : map f (.not t) = .not (map f t) := rfl

@[simp] theorem map_clause (f : β → γ) (op : Connective) (first : Tree β)
    (rest : List (Tree β)) :
    map f (.clause op first rest) = .clause op (map f first) (rest.map (map f)) :=
  fold_clause _ _ _ _ _ _

theorem map_join (f : β → γ) (op : Connective) (first : Tree β) (rest : List (Tree β)) :
    map f (join op first rest) = join op (map f first) (rest.map (map f)) := by
  cases rest with
  | nil => rfl
  | cons second rest => rw [join, map_clause, List.map_cons, join]

/-- The comparisons, from left to right. -/
def atoms : Tree β → List β := fold (fun b => [b]) id fun _ first rest => first ++ rest.flatten

@[simp] theorem atoms_atom (b : β) : (atom b).atoms = [b] := rfl

@[simp] theorem atoms_not (t : Tree β) : (not t).atoms = t.atoms := rfl

@[simp] theorem atoms_clause (op : Connective) (first : Tree β) (rest : List (Tree β)) :
    (clause op first rest).atoms = first.atoms ++ rest.flatMap atoms := by
  unfold atoms
  rw [fold_clause, List.flatMap]

theorem atoms_join (op : Connective) (first : Tree β) (rest : List (Tree β)) :
    (join op first rest).atoms = first.atoms ++ rest.flatMap atoms := by
  cases rest with
  | nil => simp [join]
  | cons second rest => rw [join, atoms_clause]

theorem mem_atoms_join {op : Connective} {f : α → Tree β} {first : α} {rest : List α} {b : β} :
    b ∈ (join op (f first) (rest.map f)).atoms ↔ ∃ a ∈ first :: rest, b ∈ (f a).atoms := by
  rw [atoms_join, List.flatMap_map, List.mem_append, List.mem_flatMap, List.exists_mem_cons_iff]

theorem atoms_map (f : β → γ) (t : Tree β) : (map f t).atoms = t.atoms.map f := by
  induction t using induct with
  | atom b => rfl
  | not t ih => exact ih
  | clause op first rest hf hr =>
    rw [map_clause, atoms_clause, atoms_clause, hf, List.map_append, List.flatMap_map,
      List.map_flatMap]
    congr 1
    exact List.flatMap_congr hr

/-- The truth value of a tree whose comparisons have the values `v`. -/
def value (v : β → Truth) : Tree β → Truth := fold v Truth.neg Connective.combine

@[simp] theorem value_atom (v : β → Truth) (b : β) : value v (.atom b) = v b := rfl

@[simp] theorem value_clause (v : β → Truth) (op : Connective) (first : Tree β)
    (rest : List (Tree β)) :
    value v (.clause op first rest) = op.combine (value v first) (rest.map (value v)) :=
  fold_clause _ _ _ _ _ _

theorem value_join (v : β → Truth) (op : Connective) (first : Tree β) (rest : List (Tree β)) :
    value v (join op first rest) = op.combine (value v first) (rest.map (value v)) := by
  cases rest with
  | nil => rfl
  | cons second rest => rw [join, value_clause]

/-! ## Grafting -/

/-- The tree of a formula, with trees for its atoms. -/
def graft (leaf : α → Tree β) : Formula α → Tree β := Formula.fold leaf .clause

@[simp] theorem graft_atom (leaf : α → Tree β) (a : α) : graft leaf (.atom a) = leaf a := rfl

@[simp] theorem graft_clause (leaf : α → Tree β) (op : Connective) (first : Formula α)
    (rest : List (Formula α)) :
    graft leaf (.clause op first rest) =
      .clause op (graft leaf first) (rest.map (graft leaf)) := by
  simp [graft]

theorem map_graft (f : β → γ) (leaf : α → Tree β) (e : Formula α) :
    map f (graft leaf e) = graft (fun a => map f (leaf a)) e := by
  induction e using Formula.induct with
  | atom a => rfl
  | clause op first rest hf hr =>
    rw [graft_clause, map_clause, graft_clause, hf, List.map_map]
    congr 1
    exact List.map_congr_left hr

theorem value_graft (v : β → Truth) (leaf : α → Tree β) (e : Formula α) :
    (graft leaf e).value v = e.value fun a => (leaf a).value v := by
  induction e using Formula.induct with
  | atom a => rfl
  | clause op first rest hf hr =>
    rw [graft_clause, value_clause, Formula.value_clause, hf, List.map_map]
    congr 1
    exact List.map_congr_left hr

/-- `g` says which tree stands for which atom when `t` is read as the tree of `e`. -/
structure GraftedBy (f : β → γ) (leaf : α → Tree γ) (e : Formula α) (t : Tree β)
    (g : Formula (α × Tree β)) : Prop where
  atoms_eq : g.map Prod.fst = e
  graft_eq : graft Prod.snd g = t
  leaves : ∀ x ∈ g.atoms, map f x.2 = leaf x.1

theorem GraftedBy.atom {f : β → γ} {leaf : α → Tree γ} {a : α} {t : Tree β}
    (h : map f t = leaf a) : GraftedBy f leaf (.atom a) t (.atom (a, t)) :=
  ⟨rfl, rfl, by simpa using h⟩

theorem exists_graftedBy_each {f : β → γ} {leaf : α → Tree γ} {es : List (Formula α)}
    {ts : List (Tree β)} (h : ts.map (map f) = es.map (graft leaf))
    (one : ∀ e ∈ es, ∀ t, map f t = graft leaf e → ∃ g, GraftedBy f leaf e t g) :
    ∃ gs : List (Formula (α × Tree β)), gs.map (Formula.map Prod.fst) = es ∧
      gs.map (graft Prod.snd) = ts ∧ ∀ x ∈ gs.flatMap Formula.atoms, map f x.2 = leaf x.1 := by
  induction es generalizing ts with
  | nil =>
    rw [List.map_nil, List.map_eq_nil_iff] at h
    exact ⟨[], rfl, h.symm, by simp⟩
  | cons e es ih =>
    obtain ⟨t, ts, rfl, ht, hts⟩ := List.map_eq_cons_iff.1 h
    obtain ⟨g, hg⟩ := one e (by simp) t ht
    obtain ⟨gs, h₁, h₂, h₃⟩ := ih hts fun e he => one e (by simp [he])
    refine ⟨g :: gs, by rw [List.map_cons, hg.atoms_eq, h₁], by rw [List.map_cons, hg.graft_eq, h₂],
      fun x hx => ?_⟩
    rw [List.flatMap_cons, List.mem_append] at hx
    exact hx.elim (hg.leaves x) (h₃ x)

/-- A tree that comes down to a grafted tree is itself grafted, from trees that come down to the
same. -/
theorem exists_graftedBy {f : β → γ} {leaf : α → Tree γ} {e : Formula α} {t : Tree β}
    (h : map f t = graft leaf e) : ∃ g, GraftedBy f leaf e t g := by
  induction e using Formula.induct generalizing t with
  | atom a => exact ⟨_, .atom h⟩
  | clause op first rest hf hr =>
    rw [graft_clause] at h
    cases t with
    | atom b => simp at h
    | not t => simp at h
    | clause q t ts =>
      rw [map_clause, clause.injEq] at h
      obtain ⟨rfl, ht, hts⟩ := h
      obtain ⟨g, hg⟩ := hf ht
      obtain ⟨gs, h₁, h₂, h₃⟩ := exists_graftedBy_each hts fun e he t => hr e he
      refine ⟨.clause q g gs, ?_, ?_, fun x hx => ?_⟩
      · rw [Formula.map_clause, hg.atoms_eq, h₁]
      · rw [graft_clause, hg.graft_eq, h₂]
      · rw [Formula.atoms_clause, List.mem_append] at hx
        exact hx.elim (hg.leaves x) (h₃ x)

end Tree

end SearchFilter.Sql
