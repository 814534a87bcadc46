import SearchFilter.Proofs.Compile.Reading
import SearchFilter.Proofs.Formula.Admit

/-!
# What compiled expressions admit

A condition is met by a row when its truth value there is `yes`; neither `no` nor `unknown` will do.
What a compiled expression admits is what the expression says without the predicates that restrict
nothing.

Main statements: `Expression.truth?_of_compile`, and `Expression.value_of_truth?`, a condition that
fails closed is met only where the whole expression is true.
-/

namespace SearchFilter

open Sql

/-! ## Being met -/

namespace Connective

theorem combine_and_eq_yes_iff {a : Truth} {l : List Truth} :
    and.combine a l = .yes ↔ ∀ b ∈ a :: l, b = .yes := by
  induction l generalizing a with
  | nil => simp
  | cons b l ih =>
    rw [combine_cons, List.forall_mem_cons]
    exact Truth.inf_eq_yes.trans (and_congr_right fun _ => ih)

theorem combine_or_eq_yes_iff {a : Truth} {l : List Truth} :
    or.combine a l = .yes ↔ ∃ b ∈ a :: l, b = .yes := by
  induction l generalizing a with
  | nil => simp [eq_comm]
  | cons b l ih =>
    rw [combine_cons, List.exists_mem_cons_iff]
    exact Truth.sup_eq_yes.trans (or_congr_right ih)

end Connective

/-- Without negations, a formula is `yes` just when it is true that some of its atoms are `yes`. -/
theorem Formula.value_eq_yes_iff {α : Type} {v : α → Truth} {e : Formula α} :
    e.value v = .yes ↔ e.value fun a => v a = .yes := by
  induction e using induct_children with
  | atom a => exact Iff.rfl
  | clause op first rest heach =>
    cases op with
    | and =>
      rw [value_clause, Connective.combine_and_eq_yes_iff, value_and, ← List.map_cons,
        List.forall_mem_map]
      exact forall₂_congr heach
    | or =>
      rw [value_clause, Connective.combine_or_eq_yes_iff, value_or, ← List.map_cons]
      simp only [List.mem_map, exists_exists_and_eq_and]
      exact exists_congr fun e => and_congr_right (heach e)

/-! ## Expressions -/

namespace Expression

variable {d : Dialect} {ns : String} {e : Expression} {c : Condition}
  {w : List (Token (Option Slot)) → Truth}

/-- The truth value of a predicate in the text of a condition, when comparisons have the values
`w`. -/
def predicateTruth (d : Dialect) (w : List (Token (Option Slot)) → Truth) (p : Predicate) : Truth :=
  (TokenTree.map some (p.tree d)).value w

/-- The truth value of a compiled expression is that of what is left of it. -/
theorem truth?_of_compile (hns : isIdentifier ns.toList = true) (h : e.compile d ns = .ok c) :
    c.truth? w = some (match e.surviving d with
      | none => .yes
      | some s => s.value (predicateTruth d w)) := by
  unfold Condition.truth? Condition.isEmpty
  rcases reading_of_compile hns h with ⟨hall, hempty⟩ | ⟨s, hs, hr⟩
  · rw [hempty, surviving_eq_none_iff.2 hall]
    rfl
  · rw [if_neg (by simpa using sqlText_ne_empty hr), hs, hr, Option.map_some, TokenTree.map,
      Tree.map_graft, Tree.value_graft]
    rfl

/-- A condition is met just where what is left of the expression is true. -/
theorem truth?_eq_yes_iff (hns : isIdentifier ns.toList = true) (h : e.compile d ns = .ok c) :
    c.truth? w = some .yes ↔
      e.Admits (Predicate.Dropped d) fun p => predicateTruth d w p = .yes := by
  have hadmits : e.Admits (Predicate.Dropped d) (fun p => predicateTruth d w p = .yes) ↔
      ∀ s, e.surviving d = some s → s.value fun p => predicateTruth d w p = .yes := Iff.rfl
  rw [hadmits, truth?_of_compile hns h]
  cases e.surviving d with
  | none => simp
  | some s => simp [Formula.value_eq_yes_iff]

theorem truth?_of_rendered (hns : isIdentifier ns.toList = true) {p : Predicate} {f : Fragment}
    (h : p.outcome d = .rendered f) :
    ∃ own, compile d ns (.atom p) = .ok own ∧ own.truth? w = some (predicateTruth d w p) := by
  obtain ⟨own, hown, hreading⟩ := reading_of_rendered hns h
  refine ⟨own, hown, ?_⟩
  unfold Condition.truth? Condition.isEmpty
  rw [if_neg (by simpa using sqlText_ne_empty hreading), hreading]
  rfl

/-- A condition is met where what is left of the expression is true. -/
theorem admits_of_truth? (hns : isIdentifier ns.toList = true) (h : e.compile d ns = .ok c)
    {v : Predicate → Prop}
    (hv : ∀ p ∈ e.atoms, ¬ p.Dropped d → ∀ own, compile d ns (.atom p) = .ok own →
      own.truth? w = some .yes → v p)
    (hc : c.truth? w = some .yes) : e.Admits (Predicate.Dropped d) v := by
  intro s hs
  refine Formula.value_mono (fun p hp hyes => ?_) ((truth?_eq_yes_iff hns h).1 hc s hs)
  obtain ⟨hpe, hkept⟩ := Formula.mem_atoms_of_sift hs hp
  obtain ⟨f, hf⟩ := Predicate.exists_rendered ((compile_eq_ok_iff.1 h).1 p hpe) hkept
  obtain ⟨own, hown, htruth⟩ := truth?_of_rendered hns hf
  exact hv p hpe hkept own hown (htruth.trans (congrArg some hyes))

/-- The condition of an expression that fails closed is met only where the expression is true, with
every predicate counted. -/
theorem value_of_truth? (hns : isIdentifier ns.toList = true) (h : e.compile d ns = .ok c)
    (hclosed : e.FailsClosed (Predicate.Dropped d)) {v : Predicate → Prop}
    (hv : ∀ p ∈ e.atoms, ¬ p.Dropped d → ∀ own, compile d ns (.atom p) = .ok own →
      own.truth? w = some .yes → v p)
    (hc : c.truth? w = some .yes) : e.value v := by
  obtain ⟨hleft, hkeeps⟩ := Formula.failsClosed_iff.1 hclosed
  exact hkeeps.value_of_admits hleft (admits_of_truth? hns h hv hc)

end Expression

end SearchFilter
