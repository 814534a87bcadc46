import SearchFilter.Proofs.Formula.Remaining

/-!
# What is left of merged clauses

Clauses of one connective are merged into another clause before some of their atoms are taken away,
or they stay where they are: what is left differs in its shape, for an inner clause may have lost
its children or all but one of them, but not in what is put together from it in order.

Main statements: `Formula.map_prune_flatten` and `Formula.map_value_sift_flatten`.
-/

namespace SearchFilter.Formula

variable {α β γ M : Type} {mul : M → M → M} {op : Connective} {φ : Formula β → M}

/-! ## What is put together from a part -/

theorem foldl_merge_some (a : M) (l : List M) :
    (l.map some).foldl (Option.merge mul) (some a) = some (l.foldl mul a) := by
  induction l generalizing a with
  | nil => rfl
  | cons b l ih => exact ih (mul a b)

/-- Where there is nothing for an element, nothing is added. -/
theorem foldl_merge_filterMap (p : γ → Option (Formula β)) (a : Option M) (l : List γ) :
    ((l.filterMap p).map fun e => some (φ e)).foldl (Option.merge mul) a =
      (l.map fun c => (p c).map φ).foldl (Option.merge mul) a := by
  induction l generalizing a with
  | nil => rfl
  | cons c l ih =>
    rw [List.map_cons, List.foldl_cons, ← ih]
    cases h : p c with
    | none => rw [List.filterMap_cons_none h, Option.map_none, Option.merge_none_right]
    | some e =>
      rw [List.filterMap_cons_some h]
      rfl

section
variable (h : ∀ first rest, φ (clause op first rest) = (rest.map φ).foldl mul (φ first))
include h

theorem map_survivors_filterMap (p : γ → Option (Formula β)) (l : List γ) :
    (survivors op (l.filterMap p)).map φ =
      (l.map fun c => (p c).map φ).foldl (Option.merge mul) none := by
  rw [← foldl_merge_filterMap]
  cases l.filterMap p with
  | nil => rfl
  | cons first rest =>
    rw [survivors, Option.map_some, h, ← foldl_merge_some, List.map_map]
    rfl

theorem map_joinAll?_filterMap (p : γ → Option (Formula β)) (l : List γ) :
    (joinAll? op (l.filterMap p)).map φ =
      (l.map fun c => (p c).map φ).foldl (Option.merge mul) none := by
  rw [← map_survivors_filterMap h]
  cases l.filterMap p with
  | nil => rfl
  | cons first rest =>
    rw [joinAll?, survivors, Option.map_some, Option.map_some, foldl_join h, h]

/-- What is put together from the children that are left of a clause. -/
theorem map_prune_clause (keep : α → Option β) (first : Formula α) (rest : List (Formula α)) :
    (prune keep (clause op first rest)).map φ =
      (rest.map fun e => (prune keep e).map φ).foldl (Option.merge mul)
        ((prune keep first).map φ) := by
  cases rest with
  | nil =>
    rw [prune_single]
    rfl
  | cons second rest =>
    rw [prune_clause, map_survivors_filterMap h, List.map_cons, List.foldl_cons,
      Option.merge_none_left]

variable [Std.Associative mul]

/-- What is left of merged clauses gives what is left of the clause over them. -/
theorem map_prune_flatten (keep : α → Option β) (first : Formula α) (rest : List (Formula α)) :
    (prune keep (flatten op first rest)).map φ = (prune keep (clause op first rest)).map φ := by
  have hclause := map_prune_clause h keep
  rw [hclause]
  exact foldl_flatten (φ := fun e => (prune keep e).map φ) hclause first rest

end

/-! ## Values -/

section
variable {L : Type} [Lattice L] (v : α → L) (keep : α → Prop) [DecidablePred keep]

theorem map_value_sift_clause (op : Connective) (first : Formula α) (rest : List (Formula α)) :
    (sift keep (clause op first rest)).map (value v) =
      (rest.map fun e => (sift keep e).map (value v)).foldl (Option.merge op.apply)
        ((sift keep first).map (value v)) := by
  have hjoin := map_joinAll?_filterMap (value_clause v op) (sift keep)
  rw [sift_clause, hjoin, List.map_cons, List.foldl_cons, Option.merge_none_left]

/-- What is left of merged clauses has the value of what is left of the clause over them, or nothing
is left of either. -/
theorem map_value_sift_flatten (op : Connective) (first : Formula α) (rest : List (Formula α)) :
    (sift keep (flatten op first rest)).map (value v) =
      (sift keep (clause op first rest)).map (value v) := by
  have hclause := map_value_sift_clause v keep op
  rw [hclause]
  exact foldl_flatten (φ := fun e => (sift keep e).map (value v)) hclause first rest

theorem remaining_flatten [OrderTop L] (ignored : α → Prop) [DecidablePred ignored]
    (op : Connective) (first : Formula α) (rest : List (Formula α)) :
    remaining ignored v (flatten op first rest) = remaining ignored v (clause op first rest) := by
  have hgetD : ∀ e : Formula α, remaining ignored v e =
      ((sift (fun a => ¬ ignored a) e).map (value v)).getD ⊤ := by
    intro e
    unfold remaining
    cases sift (fun a => ¬ ignored a) e <;> rfl
  rw [hgetD, hgetD, map_value_sift_flatten]

end

end SearchFilter.Formula
