import SearchFilter.Proofs.Except
import SearchFilter.Proofs.Selector.Translation

/-!
# Properties without a field

A selector has no expression just when one of its properties has no field, and the error tells the
first of them from left to right. Nothing else goes wrong on the way: all clauses that are built
have children. `toExpressionOrFault` is a translation that builds them by `Formula.ofChildren?` and
`Formula.flatten?`, and so could pass on the error of an empty clause; it never has one to pass on.

Main statement: `Selector.errors_of_translation`.
-/

namespace SearchFilter

namespace Selector

variable {aliases : Aliases} {s : Selector} {e : SelectorError} {property : String}

/-! ## The first property without a field -/

/-- The first property of a selector that has no field. -/
def FirstUnknown (aliases : Aliases) (s : Selector) (property : String) : Prop :=
  ∃ before after, s.properties = before ++ property :: after ∧
    (∀ p ∈ before, (aliases p).isSome = true) ∧ aliases property = none

/-- The same property, looked for. -/
def unknown? (aliases : Aliases) (s : Selector) : Option String :=
  s.properties.find? fun p => (aliases p).isNone

theorem unknown?_eq_some_iff :
    s.unknown? aliases = some property ↔ s.FirstUnknown aliases property := by
  unfold unknown? FirstUnknown
  rw [List.find?_eq_some_iff_append]
  constructor
  · rintro ⟨hnone, before, after, hproperties, hbefore⟩
    exact ⟨before, after, hproperties, by simpa [Option.isSome_iff_ne_none] using hbefore,
      by simpa using hnone⟩
  · rintro ⟨before, after, hproperties, hbefore, hnone⟩
    exact ⟨by simpa using hnone, before, after, hproperties,
      by simpa [Option.isSome_iff_ne_none] using hbefore⟩

theorem unknown?_eq_none_iff :
    s.unknown? aliases = none ↔ ∀ p ∈ s.properties, (aliases p).isSome = true := by
  unfold unknown?
  rw [List.find?_eq_none]
  simp [Option.isSome_iff_ne_none]

theorem unknown?_logical (op : Connective) (left right : Selector) :
    unknown? aliases (.logical op left right) =
      (left.unknown? aliases).or (right.unknown? aliases) :=
  List.find?_append

/-! ## Errors -/

theorem toExpression_of_unknown? (h : s.unknown? aliases = some property) :
    s.toExpression aliases = .error (.unknownProperty property) := by
  induction s with
  | comparison p op value =>
    obtain ⟨hnone, hp⟩ : (aliases p).isNone = true ∧ p = property := by
      simpa [unknown?, properties] using h
    rw [toExpression, Option.isNone_iff_eq_none.1 hnone, hp]
  | logical op left right ihl ihr =>
    rw [unknown?_logical, Option.or_eq_some_iff] at h
    rcases h with hleft | ⟨hleft, hright⟩
    · exact bind_eq_error_iff.2 (.inl (ihl hleft))
    · obtain ⟨a, ha⟩ := exists_toExpression_eq_ok (unknown?_eq_none_iff.1 hleft)
      exact bind_eq_error_iff.2 (.inr ⟨a, ha, bind_eq_error_iff.2 (.inl (ihr hright))⟩)
  | group inner ih => exact ih h

/-- The error of a selector without an expression is its first property without a field. -/
theorem toExpression_eq_error_iff :
    s.toExpression aliases = .error e ↔
      ∃ p, s.FirstUnknown aliases p ∧ e = .unknownProperty p := by
  simp only [← unknown?_eq_some_iff]
  cases h : s.unknown? aliases with
  | none =>
    obtain ⟨x, hx⟩ := exists_toExpression_eq_ok (unknown?_eq_none_iff.1 h)
    simp [hx]
  | some p => simp [toExpression_of_unknown? h, eq_comm]

theorem exists_toExpression_eq_error_iff :
    (∃ e, s.toExpression aliases = .error e) ↔ ∃ p ∈ s.properties, aliases p = none := by
  have hknown : s.unknown? aliases ≠ none ↔ ∃ p ∈ s.properties, aliases p = none := by
    rw [ne_eq, unknown?_eq_none_iff]
    simp [Option.isSome_iff_ne_none]
  rw [← hknown, Option.ne_none_iff_exists']
  constructor
  · rintro ⟨e, he⟩
    obtain ⟨p, hp, -⟩ := toExpression_eq_error_iff.1 he
    exact ⟨p, unknown?_eq_some_iff.2 hp⟩
  · rintro ⟨p, hp⟩
    exact ⟨_, toExpression_of_unknown? hp⟩

theorem expressionOf_eq_error_iff {reader : Reader} {text : String} :
    expressionOf reader aliases text = .error e ↔
      (∃ cause, reader text = .error cause ∧ e = .malformed cause) ∨
      ∃ s p, reader text = .ok s ∧ s.FirstUnknown aliases p ∧ e = .unknownProperty p := by
  unfold expressionOf
  rw [bind_eq_error_iff]
  cases reader text with
  | error cause => simp [Except.mapError, eq_comm]
  | ok s => simp [Except.mapError, toExpression_eq_error_iff]

/-! ## Clauses that could be empty -/

/-- What a translation that checks its clauses can fail with. -/
inductive Fault where
  | selector (e : SelectorError)
  | clause (e : EmptyClause)
  deriving DecidableEq, Repr

end Selector

namespace Comparator

/-- The comparison of a field with a value, with its clause checked. -/
def expressionOrFault (field : Field) (value : String) :
    Comparator → Except Selector.Fault Expression
  | notEqual =>
    (Formula.ofChildren? .or [Expression.compare field .eq .null,
      Expression.compare field .notEq (.exact value)]).mapError .clause
  | op => .ok (op.expression field value)

theorem expressionOrFault_eq (op : Comparator) (field : Field) (value : String) :
    op.expressionOrFault field value = .ok (op.expression field value) := by
  cases op <;> rfl

end Comparator

namespace Selector

/-- The expression that a selector stands for, with its clauses checked. -/
def toExpressionOrFault (aliases : Aliases) : Selector → Except Fault Expression
  | comparison property op value =>
    match aliases property with
    | some field => op.expressionOrFault field value
    | none => .error (.selector (.unknownProperty property))
  | logical op left right => do
    let a ← toExpressionOrFault aliases left
    let b ← toExpressionOrFault aliases right
    (Formula.flatten? op [a, b]).mapError .clause
  | group inner => toExpressionOrFault aliases inner

/-- The expression that a text stands for, with its clauses checked. -/
def expressionOfOrFault (reader : Reader) (aliases : Aliases) (text : String) :
    Except Fault Expression := do
  let selector ← (reader text).mapError fun e => .selector (.malformed e)
  toExpressionOrFault aliases selector

variable (aliases)

theorem toExpressionOrFault_eq (s : Selector) :
    toExpressionOrFault aliases s = (toExpression aliases s).mapError .selector := by
  induction s with
  | comparison property op value =>
    rw [toExpressionOrFault, toExpression]
    cases aliases property with
    | none => rfl
    | some field => exact op.expressionOrFault_eq field value
  | logical op left right ihl ihr =>
    rw [toExpressionOrFault, toExpression, ihl, ihr]
    cases toExpression aliases left with
    | error cause => rfl
    | ok a =>
      cases toExpression aliases right with
      | error cause => rfl
      | ok b => rfl
  | group inner ih => exact ih

theorem expressionOfOrFault_eq (reader : Reader) (text : String) :
    expressionOfOrFault reader aliases text =
      (expressionOf reader aliases text).mapError .selector := by
  unfold expressionOfOrFault expressionOf
  cases reader text with
  | error cause => rfl
  | ok s => exact toExpressionOrFault_eq aliases s

/-- A selector has no expression just when one of its properties has no field, and the first of them
is the error. A text has none just when it cannot be read, or when this holds of what is read. No
clause that is built on the way is empty. -/
theorem errors_of_translation (s : Selector) :
    ((∃ e, s.toExpression aliases = .error e) ↔ ∃ p ∈ s.properties, aliases p = none) ∧
    (∀ e, s.toExpression aliases = .error e ↔
      ∃ p, s.FirstUnknown aliases p ∧ e = .unknownProperty p) ∧
    s.toExpressionOrFault aliases = (s.toExpression aliases).mapError .selector ∧
    ∀ (reader : Reader) (text : String),
      (∀ e, expressionOf reader aliases text = .error e ↔
        (∃ cause, reader text = .error cause ∧ e = .malformed cause) ∨
        ∃ s p, reader text = .ok s ∧ s.FirstUnknown aliases p ∧ e = .unknownProperty p) ∧
      expressionOfOrFault reader aliases text =
        (expressionOf reader aliases text).mapError .selector :=
  ⟨exists_toExpression_eq_error_iff, fun _ => toExpression_eq_error_iff,
    toExpressionOrFault_eq aliases s,
    fun reader text => ⟨fun _ => expressionOf_eq_error_iff,
      expressionOfOrFault_eq aliases reader text⟩⟩

example : toExpression .standard (.logical .or (.comparison "format" .equal "raw")
      (.logical .and (.group (.comparison "colour" .notEqual "red"))
        (.comparison "size" .equal "2"))) = .error (.unknownProperty "colour") := by
  decide

end Selector

end SearchFilter
