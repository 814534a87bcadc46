/-!
# Formulas

Trees of clauses over atoms, the shape that search expressions and SQL conditions share. A clause
joins one formula or more by its connective: its children are `first` and `rest`, in order, so
that no clause is empty.

Every function on formulas is an instance of one recursion, `Formula.fold`, and every proof about
one goes by `Formula.induct`.
-/

namespace SearchFilter

/-- How the children of a clause are joined. -/
inductive Connective where
  | and
  | or
  deriving DecidableEq, Repr

namespace Connective

def all : List Connective := [and, or]

def name : Connective → String
  | and => "AND"
  | or => "OR"

/-- The name as the first word of a sentence. -/
def title : Connective → String
  | and => "And"
  | or => "Or"

/-- What stands between two children in SQL. -/
def joiner : Connective → String
  | and => " AND "
  | or => " OR "

end Connective

/-- A tree of clauses over atoms. -/
inductive Formula (α : Type) where
  | atom (a : α)
  | clause (op : Connective) (first : Formula α) (rest : List (Formula α))

/-- Why a clause could not be built. -/
structure EmptyClause where
  op : Connective
  deriving DecidableEq, Repr

def EmptyClause.message (e : EmptyClause) : String :=
  s!"{e.op.title} clause must have at least one child"

namespace Formula

variable {α β : Type}

/-! ## Recursion and induction -/

section
variable (leaf : α → β) (node : Connective → β → List β → β)

mutual

/-- Replaces atoms by `leaf` and clauses by `node`, from the bottom up. -/
def fold : Formula α → β
  | .atom a => leaf a
  | .clause op first rest => node op (fold first) (foldEach rest)

/-- The values of several formulas, in order. -/
def foldEach : List (Formula α) → List β
  | [] => []
  | f :: rest => fold f :: foldEach rest

end

theorem foldEach_eq_map (fs : List (Formula α)) :
    foldEach leaf node fs = fs.map (fold leaf node) := by
  induction fs with
  | nil => rfl
  | cons f fs ih => simp [foldEach, ih]

@[simp] theorem fold_atom (a : α) : fold leaf node (.atom a) = leaf a := rfl

@[simp] theorem fold_clause (op : Connective) (first : Formula α) (rest : List (Formula α)) :
    fold leaf node (.clause op first rest) =
      node op (fold leaf node first) (rest.map (fold leaf node)) := by
  rw [fold, foldEach_eq_map]

end

/-- What holds of atoms, and of a clause when it holds of its children, holds of every formula. -/
theorem induct {motive : Formula α → Prop} (atom : ∀ a, motive (.atom a))
    (clause : ∀ op first rest, motive first → (∀ f ∈ rest, motive f) →
      motive (.clause op first rest)) (f : Formula α) : motive f :=
  Formula.rec (motive_1 := motive) (motive_2 := fun fs => ∀ f ∈ fs, motive f)
    atom (fun op first rest hf hr => clause op first rest hf hr)
    (by simp) (fun f fs hf hfs => by simpa using ⟨hf, hfs⟩) f

/-! ## Equality -/

mutual

/-- Equality of formulas is decided part by part. -/
def decideEq [DecidableEq α] (f g : Formula α) : Decidable (f = g) :=
  match f, g with
  | .atom a, .atom b => decidable_of_iff (a = b) (by simp)
  | .clause p f fs, .clause q g gs =>
    haveI := decideEq f g
    haveI := decideEqEach fs gs
    decidable_of_iff (p = q ∧ f = g ∧ fs = gs) (by simp)
  | .atom _, .clause _ _ _ => isFalse nofun
  | .clause _ _ _, .atom _ => isFalse nofun

def decideEqEach [DecidableEq α] (fs gs : List (Formula α)) : Decidable (fs = gs) :=
  match fs, gs with
  | [], [] => isTrue rfl
  | f :: fs, g :: gs =>
    haveI := decideEq f g
    haveI := decideEqEach fs gs
    decidable_of_iff (f = g ∧ fs = gs) (by simp)
  | [], _ :: _ => isFalse nofun
  | _ :: _, [] => isFalse nofun

end

instance [DecidableEq α] : DecidableEq (Formula α) := decideEq

/-! ## Atoms -/

/-- The atoms of a formula, from left to right. -/
def atoms : Formula α → List α := fold (fun a => [a]) fun _ first rest => first ++ rest.flatten

@[simp] theorem atoms_atom (a : α) : (atom a).atoms = [a] := rfl

@[simp] theorem atoms_clause (op : Connective) (first : Formula α) (rest : List (Formula α)) :
    (clause op first rest).atoms = first.atoms ++ rest.flatMap atoms := by
  simp [atoms, List.flatMap]

/-- The clause over the formulas that are left, if any is. -/
def survivors (op : Connective) : List (Formula α) → Option (Formula α)
  | [] => none
  | first :: rest => some (.clause op first rest)

/-- Replaces each atom by what `keep` makes of it, and leaves out those of which it makes nothing.
A clause with a single child is that child; any other clause stays a clause over the children
that are left, and goes when none is. -/
def prune (keep : α → Option β) : Formula α → Option (Formula β) :=
  fold (fun a => (keep a).map .atom) fun op first rest =>
    match rest with
    | [] => first
    | _ :: _ => survivors op ((first :: rest).filterMap id)

@[simp] theorem prune_atom (keep : α → Option β) (a : α) :
    prune keep (.atom a) = (keep a).map .atom := rfl

@[simp] theorem prune_single (keep : α → Option β) (op : Connective) (f : Formula α) :
    prune keep (.clause op f []) = prune keep f := by simp [prune]

@[simp] theorem prune_clause (keep : α → Option β) (op : Connective) (first second : Formula α)
    (rest : List (Formula α)) :
    prune keep (.clause op first (second :: rest)) =
      survivors op ((first :: second :: rest).filterMap (prune keep)) := by
  simp [prune, List.filterMap_map, List.filterMap_cons]

/-! ## Building clauses -/

/-- The clause over the given children. -/
def ofChildren? (op : Connective) : List (Formula α) → Except EmptyClause (Formula α)
  | [] => .error ⟨op⟩
  | first :: rest => .ok (.clause op first rest)

/-- What a formula contributes to a clause of `op`, as its first part and the others: its children
if it is itself such a clause, and otherwise itself. -/
def spread (op : Connective) : Formula α → Formula α × List (Formula α)
  | .clause q first rest => if q = op then (first, rest) else (.clause q first rest, [])
  | .atom a => (.atom a, [])

/-- The same parts as one list. -/
def operands (op : Connective) (f : Formula α) : List (Formula α) :=
  (spread op f).1 :: (spread op f).2

/-- The clause of `op` over one formula or more, without a clause around a single one. -/
def join (op : Connective) (first : Formula α) : List (Formula α) → Formula α
  | [] => first
  | second :: rest => .clause op first (second :: rest)

/-- Joins one formula or more, with the children of clauses of the same connective in their
place. -/
def flatten (op : Connective) (first : Formula α) (rest : List (Formula α)) : Formula α :=
  join op (spread op first).1 ((spread op first).2 ++ rest.flatMap (operands op))

/-- Joins any number of formulas; to join none is an error. -/
def flatten? (op : Connective) : List (Formula α) → Except EmptyClause (Formula α)
  | [] => .error ⟨op⟩
  | first :: rest => .ok (flatten op first rest)

end Formula

end SearchFilter
