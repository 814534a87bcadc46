import Mathlib.Logic.Relation
import SearchFilter.Proofs.Formula.Value
import SearchFilter.Selector.Expression

/-!
# Selectors with other groups

Groups tell how a selector is written, and so does the way in which a chain of one connective is
nested. Neither has a part in what the selector stands for: selectors that differ in nothing else,
wherever in the tree, have the same expression, or fail with the same error.

Whether two selectors differ in nothing else is told by their chains, in which every group is opened
and every chain of one connective is laid out flat.

Main statements: `Selector.toExpression_eq_of_regrouped` and `Selector.regrouped_iff`.
-/

namespace SearchFilter.Selector

/-! ## Regrouping -/

/-- One step of regrouping, anywhere in a selector: a group is opened, or a chain of one connective
is nested to the right instead of to the left. -/
inductive Regroups : Selector → Selector → Prop
  | ungroup (x : Selector) : Regroups (.group x) x
  | rotate (op : Connective) (x y z : Selector) :
      Regroups (.logical op (.logical op x y) z) (.logical op x (.logical op y z))
  | inside {x x' : Selector} (h : Regroups x x') : Regroups (.group x) (.group x')
  | left {x x' : Selector} (op : Connective) (h : Regroups x x') (y : Selector) :
      Regroups (.logical op x y) (.logical op x' y)
  | right {y y' : Selector} (op : Connective) (x : Selector) (h : Regroups y y') :
      Regroups (.logical op x y) (.logical op x y')

/-- Selectors that become each other by steps of regrouping, taken in either direction. -/
def Regrouped (x y : Selector) : Prop := Relation.EqvGen Regroups x y

namespace Regrouped

variable {x x' y y' z : Selector}

theorem refl (x : Selector) : Regrouped x x := Relation.EqvGen.refl x

theorem trans (h : Regrouped x y) (h' : Regrouped y z) : Regrouped x z :=
  Relation.EqvGen.trans _ _ _ h h'

theorem symm (h : Regrouped x y) : Regrouped y x := Relation.EqvGen.symm _ _ h

theorem of_step (h : Regroups x y) : Regrouped x y := Relation.EqvGen.rel _ _ h

/-- What no step changes is the same for selectors that become each other. -/
theorem eq_of_steps {β : Type} {v : Selector → β} (hv : ∀ x y, Regroups x y → v x = v y)
    (h : Regrouped x y) : v x = v y := by
  induction h with
  | rel x y h => exact hv x y h
  | refl x => rfl
  | symm x y _ ih => exact ih.symm
  | trans x y z _ _ ihxy ihyz => exact ihxy.trans ihyz

/-- What is regrouped may be a part of a selector. -/
theorem map {f : Selector → Selector} (hf : ∀ x y, Regroups x y → Regroups (f x) (f y))
    (h : Regrouped x y) : Regrouped (f x) (f y) := by
  induction h with
  | rel x y h => exact of_step (hf x y h)
  | refl x => exact refl (f x)
  | symm x y _ ih => exact ih.symm
  | trans x y z _ _ ihxy ihyz => exact ihxy.trans ihyz

theorem logical (op : Connective) (hx : Regrouped x x') (hy : Regrouped y y') :
    Regrouped (.logical op x y) (.logical op x' y') := by
  have hleft : Regrouped (.logical op x y) (.logical op x' y) :=
    hx.map (f := fun x => .logical op x y) fun _ _ h => .left op h y
  have hright : Regrouped (.logical op x' y) (.logical op x' y') :=
    hy.map (f := fun y => .logical op x' y) fun _ _ h => .right op x' h
  exact hleft.trans hright

theorem foldl (op : Connective) (hx : Regrouped x x') (ys : List Selector) :
    Regrouped (ys.foldl (.logical op) x) (ys.foldl (.logical op) x') := by
  refine hx.map (f := fun x => ys.foldl (.logical op) x) fun x x' h => ?_
  induction ys generalizing x x' with
  | nil => exact h
  | cons y ys ih => exact ih _ _ (.left op h y)

/-- A chain on the right of a connective is taken over into the chain of the left. -/
theorem append_chain (op : Connective) (x y : Selector) (ys : List Selector) :
    Regrouped (.logical op x (ys.foldl (.logical op) y)) ((y :: ys).foldl (.logical op) x) := by
  induction ys generalizing y with
  | nil => exact refl _
  | cons z ys ih =>
    have hrotated : Regrouped (.logical op x (.logical op y z)) (.logical op (.logical op x y) z) :=
      (of_step (.rotate op x y z)).symm
    exact (ih (.logical op y z)).trans (hrotated.foldl op ys)

end Regrouped

/-! ## Expressions -/

variable {x y : Selector}

theorem toExpression_rotate (aliases : Aliases) (op : Connective) (x y z : Selector) :
    toExpression aliases (.logical op (.logical op x y) z) =
      toExpression aliases (.logical op x (.logical op y z)) := by
  simp only [toExpression]
  cases toExpression aliases x with
  | error cause => rfl
  | ok a =>
    cases toExpression aliases y with
    | error cause => rfl
    | ok b =>
      cases toExpression aliases z with
      | error cause => rfl
      | ok c => exact congrArg Except.ok (Formula.flatten_assoc op a b c)

theorem toExpression_eq_of_regroups (h : Regroups x y) (aliases : Aliases) :
    x.toExpression aliases = y.toExpression aliases := by
  induction h with
  | ungroup x => rfl
  | rotate op x y z => exact toExpression_rotate aliases op x y z
  | inside _ ih => exact ih
  | left op _ y ih => rw [toExpression, toExpression, ih]
  | right op x _ ih => rw [toExpression, toExpression, ih]

/-- Selectors that differ in groups and in the nesting of chains alone have the same expression, or
the same error. -/
theorem toExpression_eq_of_regrouped (h : Regrouped x y) (aliases : Aliases) :
    x.toExpression aliases = y.toExpression aliases :=
  h.eq_of_steps fun _ _ hstep => toExpression_eq_of_regroups hstep aliases

/-! ## Chains -/

/-- The comparisons of a selector in their chains, with no group around any of them. -/
def chains : Selector → Formula (String × Comparator × String)
  | comparison property op value => .atom (property, op, value)
  | logical op left right => left.chains.flatten op [right.chains]
  | group inner => inner.chains

/-- The selector of chains that are nested to the left. -/
def ofChains : Formula (String × Comparator × String) → Selector :=
  Formula.fold (fun c => comparison c.1 c.2.1 c.2.2) fun op first rest =>
    rest.foldl (logical op) first

theorem ofChains_clause (op : Connective) (first : Formula (String × Comparator × String))
    (rest : List (Formula (String × Comparator × String))) :
    ofChains (.clause op first rest) = (rest.map ofChains).foldl (logical op) (ofChains first) :=
  Formula.fold_clause _ _ op first rest

theorem regrouped_ofChains_flatten (op : Connective)
    (f g : Formula (String × Comparator × String)) :
    Regrouped (.logical op (ofChains f) (ofChains g)) (ofChains (f.flatten op [g])) := by
  have hspread := Formula.foldl_spread (ofChains_clause op)
  have hmerged : ofChains (f.flatten op [g]) =
      ((g.operands op).map ofChains).foldl (logical op) (ofChains f) := by
    rw [Formula.flatten, Formula.foldl_join (ofChains_clause op), List.map_append,
      List.foldl_append, hspread, List.flatMap_singleton]
  rw [hmerged, ← hspread g]
  exact Regrouped.append_chain op _ _ _

theorem regrouped_ofChains_chains (x : Selector) : Regrouped x (ofChains x.chains) := by
  induction x with
  | comparison property op value => exact .refl _
  | logical op left right ihl ihr =>
    exact (ihl.logical op ihr).trans (regrouped_ofChains_flatten op _ _)
  | group inner ih => exact (Regrouped.of_step (.ungroup inner)).trans ih

theorem chains_eq_of_regroups (h : Regroups x y) : x.chains = y.chains := by
  induction h with
  | ungroup x => rfl
  | rotate op x y z => exact Formula.flatten_assoc op x.chains y.chains z.chains
  | inside _ ih => exact ih
  | left op _ y ih => rw [chains, chains, ih]
  | right op x _ ih => rw [chains, chains, ih]

/-- Two selectors differ in groups and in the nesting of chains alone just when they have the same
chains. -/
theorem regrouped_iff : Regrouped x y ↔ x.chains = y.chains := by
  constructor
  · intro h
    exact h.eq_of_steps fun _ _ => chains_eq_of_regroups
  · intro h
    have hy := (regrouped_ofChains_chains y).symm
    rw [← h] at hy
    exact (regrouped_ofChains_chains x).trans hy

instance (x y : Selector) : Decidable (Regrouped x y) := decidable_of_iff _ regrouped_iff.symm

theorem toExpression_eq_of_regrouped_nested :
    Regrouped
      (.logical .or (.comparison "format" .equal "raw")
        (.group (.logical .or (.comparison "name" .notEqual "a")
          (.comparison "path" .matching "b"))))
      (.logical .or
        (.group (.logical .or (.comparison "format" .equal "raw")
          (.comparison "name" .notEqual "a")))
        (.comparison "path" .matching "b")) ∧
    toExpression .standard (.logical .or (.comparison "format" .equal "raw")
        (.group (.logical .or (.comparison "name" .notEqual "a")
          (.comparison "path" .matching "b")))) =
      toExpression .standard (.logical .or
        (.group (.logical .or (.comparison "format" .equal "raw")
          (.comparison "name" .notEqual "a")))
        (.comparison "path" .matching "b")) := by
  have h : Regrouped
      (.logical .or (.comparison "format" .equal "raw")
        (.group (.logical .or (.comparison "name" .notEqual "a")
          (.comparison "path" .matching "b"))))
      (.logical .or
        (.group (.logical .or (.comparison "format" .equal "raw")
          (.comparison "name" .notEqual "a")))
        (.comparison "path" .matching "b")) := by decide
  exact ⟨h, toExpression_eq_of_regrouped h .standard⟩

end SearchFilter.Selector
