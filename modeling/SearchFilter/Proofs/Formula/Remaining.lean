import SearchFilter.Proofs.Formula.Sift
import SearchFilter.Proofs.Formula.Value

/-!
# The value of what is left of a formula

When some atoms of a formula are ignored it has the value of what is left of it; where nothing is
left, nothing is demanded. In a conjunction this is the meet over the children, also when some of
them are gone. In a disjunction it is not the join: a child that is gone does not make it true.

Main statement: `remaining_flatten_and`.
-/

namespace SearchFilter

variable {L : Type} [Lattice L] [OrderTop L]

theorem Connective.combine_and_eq_inf (a : L) (l : List L) :
    Connective.and.combine a l = a ⊓ l.foldr (· ⊓ ·) ⊤ := by
  induction l generalizing a with
  | nil => exact inf_top_eq a |>.symm
  | cons b l ih =>
    rw [combine_cons, ih]
    rfl

namespace Formula

variable {α : Type}

section
variable (ignored : α → Prop) [DecidablePred ignored]

/-- The value of what is left of a formula, or the greatest value if nothing is. -/
def remaining (v : α → L) (e : Formula α) : L :=
  (e.sift fun a => ¬ ignored a).elim ⊤ (value v)

end

variable {ignored : α → Prop} [DecidablePred ignored] {v : α → L}

theorem elim_joinAll?_and (es : List (Formula α)) :
    (joinAll? .and es).elim ⊤ (value v) = (es.map (value v)).foldr (· ⊓ ·) ⊤ := by
  cases es with
  | nil => rfl
  | cons first rest =>
    rw [joinAll?, Option.elim_some, value_join, value_clause, Connective.combine_and_eq_inf]
    rfl

/-- Children of which nothing is left have no part in a meet. -/
theorem foldr_inf_filterMap_sift (es : List (Formula α)) :
    ((es.filterMap (sift fun a => ¬ ignored a)).map (value v)).foldr (· ⊓ ·) ⊤ =
      (es.map (remaining ignored v)).foldr (· ⊓ ·) ⊤ := by
  induction es with
  | nil => rfl
  | cons e es ih =>
    rw [List.map_cons, List.foldr_cons, ← ih, remaining]
    cases h : e.sift fun a => ¬ ignored a with
    | none => rw [List.filterMap_cons_none h, Option.elim_none, top_inf_eq]
    | some f =>
      rw [List.filterMap_cons_some h]
      rfl

theorem remaining_and (first : Formula α) (rest : List (Formula α)) :
    remaining ignored v (clause .and first rest) =
      Connective.and.combine (remaining ignored v first) (rest.map (remaining ignored v)) := by
  have hclause : remaining ignored v (clause .and first rest) =
      ((first :: rest).map (remaining ignored v)).foldr (· ⊓ ·) ⊤ := by
    rw [remaining, sift_clause, elim_joinAll?_and, foldr_inf_filterMap_sift]
  rw [hclause, Connective.combine_and_eq_inf]
  rfl

/-- Where no atom is ignored, a formula has its own value. -/
theorem remaining_of_forall {e : Formula α} (h : ∀ a ∈ e.atoms, ¬ ignored a) :
    remaining ignored v e = e.value v := by
  obtain ⟨s, hs, hvalue⟩ := Option.map_eq_some_iff.1 (map_value_sift (v := v) h)
  rw [remaining, hs, Option.elim_some, hvalue]

/-- What is left of a conjunction has the meet of what is left of its parts, conjunctions among them
or not. -/
theorem remaining_flatten_and (first : Formula α) (rest : List (Formula α)) :
    remaining ignored v (flatten .and first rest) =
      Connective.and.combine (remaining ignored v first) (rest.map (remaining ignored v)) :=
  combine_flatten remaining_and first rest

end Formula

end SearchFilter
