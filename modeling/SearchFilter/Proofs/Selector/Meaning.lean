import SearchFilter.Proofs.Formula.Value
import SearchFilter.Selector.Expression

/-!
# What selectors mean

A selector holds of a component when its comparisons make it hold. What a comparison means is said
in predicates of search expressions, so that a selector and the expression that it stands for can be
compared under any truth values of predicates.

Main statement: `Selector.value_toExpression`.
-/

namespace SearchFilter

section
variable (v : Predicate → Prop)

/-- Whether a field compares with a value: an absent value is different from every text, and to
start with a text is to be matched by it and a wildcard. -/
def Comparator.Holds (field : Field) (value : String) : Comparator → Prop
  | equal => v ⟨field, .eq, .exact value⟩
  | notEqual => v ⟨field, .eq, .null⟩ ∨ v ⟨field, .notEq, .exact value⟩
  | startsWith => v ⟨field, .eq, .wildcard (openValue value) false⟩
  | matching => v ⟨field, .regex, .exact (elementRegex value)⟩

/-- Whether a selector holds. A property without a field makes its comparison fail. -/
def Selector.Holds (aliases : Aliases) : Selector → Prop
  | comparison property op value =>
    ∃ field, aliases property = some field ∧ op.Holds v field value
  | logical .and left right => Holds aliases left ∧ Holds aliases right
  | logical .or left right => Holds aliases left ∨ Holds aliases right
  | group inner => Holds aliases inner

end

variable {v : Predicate → Prop}

theorem Comparator.value_expression (op : Comparator) (field : Field) (value : String) :
    (op.expression field value).value v ↔ op.Holds v field value := by
  cases op with
  | equal | startsWith | matching => exact Iff.rfl
  | notEqual =>
    rw [expression, Formula.value_or, List.exists_mem_cons_iff, List.exists_mem_cons_iff]
    simp [Holds, Expression.compare]

theorem Formula.value_flatten_and {α : Type} {v : α → Prop} (a b : Formula α) :
    (a.flatten .and [b]).value v ↔ a.value v ∧ b.value v := by
  rw [value_flatten, value_and, List.forall_mem_cons, List.forall_mem_singleton]

theorem Formula.value_flatten_or {α : Type} {v : α → Prop} (a : Formula α)
    (rest : List (Formula α)) :
    (a.flatten .or rest).value v ↔ ∃ e ∈ a :: rest, e.value v := by
  rw [value_flatten, value_or]

namespace Selector

theorem toExpression_comparison_eq_ok_iff {aliases : Aliases} {property value : String}
    {op : Comparator} {e : Expression} :
    (comparison property op value).toExpression aliases = .ok e ↔
      ∃ field, aliases property = some field ∧ e = op.expression field value := by
  unfold toExpression
  cases aliases property with
  | none => simp
  | some field => simp [eq_comm]

theorem toExpression_logical_eq_ok_iff {aliases : Aliases} {op : Connective} {left right : Selector}
    {e : Expression} :
    (logical op left right).toExpression aliases = .ok e ↔ ∃ a b,
      left.toExpression aliases = .ok a ∧ right.toExpression aliases = .ok b ∧
        e = a.flatten op [b] := by
  rw [toExpression]
  cases left.toExpression aliases with
  | error cause => exact ⟨nofun, nofun⟩
  | ok a =>
    cases right.toExpression aliases with
    | error cause => exact ⟨nofun, nofun⟩
    | ok b =>
      constructor
      · intro h
        cases h
        exact ⟨a, b, rfl, rfl, rfl⟩
      · rintro ⟨a', b', ha, hb, rfl⟩
        cases ha
        cases hb
        rfl

/-- The expression of a selector is true just when the selector holds. -/
theorem value_toExpression {aliases : Aliases} {s : Selector} {e : Expression}
    (h : s.toExpression aliases = .ok e) : e.value v ↔ s.Holds v aliases := by
  induction s generalizing e with
  | comparison property op value =>
    obtain ⟨field, hfield, rfl⟩ := toExpression_comparison_eq_ok_iff.1 h
    rw [Comparator.value_expression]
    constructor
    · intro hop
      exact ⟨field, hfield, hop⟩
    · rintro ⟨field', hfield', hop⟩
      rw [hfield, Option.some.injEq] at hfield'
      exact hfield' ▸ hop
  | logical op left right ihl ihr =>
    obtain ⟨a, b, ha, hb, rfl⟩ := toExpression_logical_eq_ok_iff.1 h
    cases op with
    | and => rw [Formula.value_flatten_and, ihl ha, ihr hb, Holds]
    | or =>
      rw [Formula.value_flatten_or, List.exists_mem_cons_iff, ihl ha, Holds]
      simp [ihr hb]
  | group inner ih =>
    rw [toExpression] at h
    exact ih h

/-- A text has an expression when it can be read and the properties in it are known. -/
theorem expressionOf_eq_ok_iff {reader : Reader} {aliases : Aliases} {text : String}
    {e : Expression} :
    expressionOf reader aliases text = .ok e ↔
      ∃ s, reader text = .ok s ∧ s.toExpression aliases = .ok e := by
  unfold expressionOf
  cases hread : reader text with
  | error complaint =>
    constructor
    · intro h
      cases h
    · rintro ⟨s, hs, -⟩
      cases hs
  | ok s =>
    constructor
    · intro h
      exact ⟨s, rfl, h⟩
    · rintro ⟨s', hs, h⟩
      cases hs
      exact h

end Selector

end SearchFilter
