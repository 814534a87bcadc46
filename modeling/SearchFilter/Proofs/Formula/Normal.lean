import Mathlib.Data.List.Basic
import SearchFilter.Formula

/-!
# Formulas in normal form

A formula is in normal form when no clause in it has a single child or a child that is a clause of
the same connective. To join formulas in normal form, with clauses of the same connective merged,
gives a formula in normal form: one level of merging is enough, since below it nothing is left to
merge.

Main statement: `Formula.isNormal_flatten`.
-/

namespace SearchFilter.Formula

variable {α : Type} {op : Connective} {e first : Formula α} {rest : List (Formula α)}

/-- Whether a formula is a clause of a connective. -/
def IsClause (op : Connective) (e : Formula α) : Prop := ∃ first rest, e = clause op first rest

/-- Every clause has two children or more, none of which is a clause of the same connective. -/
inductive IsNormal : Formula α → Prop
  | atom (a : α) : IsNormal (.atom a)
  | clause {op : Connective} {first second : Formula α} {rest : List (Formula α)}
      (hchildren : ∀ e ∈ first :: second :: rest, IsNormal e)
      (hop : ∀ e ∈ first :: second :: rest, ¬ e.IsClause op) :
      IsNormal (.clause op first (second :: rest))

theorem isNormal_of_mem_operands (h : e.IsNormal) :
    ∀ f ∈ e.operands op, f.IsNormal ∧ ¬ f.IsClause op := by
  cases h with
  | atom a =>
    rw [operands, spread, List.forall_mem_singleton]
    exact ⟨.atom a, nofun⟩
  | @clause p first second rest hchildren hop =>
    rw [operands, spread]
    split
    · next hp => exact fun f hf => ⟨hchildren f hf, hp ▸ hop f hf⟩
    · next hp =>
      rw [List.forall_mem_singleton]
      refine ⟨.clause hchildren hop, ?_⟩
      rintro ⟨first', rest', heq⟩
      cases heq
      exact hp rfl

theorem isNormal_join (h : ∀ e ∈ first :: rest, e.IsNormal ∧ ¬ e.IsClause op) :
    (join op first rest).IsNormal := by
  cases rest with
  | nil => exact (h first List.mem_cons_self).1
  | cons second rest => exact .clause (fun e he => (h e he).1) fun e he => (h e he).2

/-- Formulas in normal form are merged into one in normal form. -/
theorem isNormal_flatten (h : ∀ e ∈ first :: rest, e.IsNormal) :
    (flatten op first rest).IsNormal := by
  have hmerged : (spread op first).1 :: ((spread op first).2 ++ rest.flatMap (operands op)) =
      (first :: rest).flatMap (operands op) := rfl
  refine isNormal_join ?_
  rw [hmerged, List.forall_mem_flatMap]
  exact fun e he => isNormal_of_mem_operands (h e he)

end SearchFilter.Formula
