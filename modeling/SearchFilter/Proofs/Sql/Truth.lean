import Mathlib.Order.Basic
import Mathlib.Order.BoundedOrder.Basic
import Mathlib.Order.Lattice

/-!
# Truth in SQL

A comparison with an absent value is neither true nor false. Of the three truth values `no` is
the least and `yes` the greatest; a conjunction has the least value of its parts, a disjunction
the greatest, and the negation of what is not known is not known.
-/

namespace SearchFilter.Sql

/-- A truth value. -/
inductive Truth where
  | no
  | unknown
  | yes
  deriving DecidableEq, Repr

namespace Truth

def rank : Truth → ℕ
  | no => 0
  | unknown => 1
  | yes => 2

theorem rank_injective : Function.Injective rank := by
  intro a b h
  cases a <;> cases b <;> first | rfl | exact absurd h (by decide)

instance : LinearOrder Truth := LinearOrder.lift' rank rank_injective

instance : OrderTop Truth where
  top := yes
  le_top a := by cases a <;> decide

/-- The negation. -/
def neg : Truth → Truth
  | no => yes
  | unknown => unknown
  | yes => no

example : unknown ⊓ no = no ∧ unknown ⊓ yes = unknown ∧ unknown ⊔ yes = yes := by decide

theorem inf_eq_yes {a b : Truth} : a ⊓ b = yes ↔ a = yes ∧ b = yes := by
  cases a <;> cases b <;> decide

theorem sup_eq_yes {a b : Truth} : a ⊔ b = yes ↔ a = yes ∨ b = yes := by
  cases a <;> cases b <;> decide

theorem neg_eq_yes {a : Truth} : a.neg = yes ↔ a = no := by
  cases a <;> decide

end Truth

end SearchFilter.Sql
