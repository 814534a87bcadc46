import SearchFilter.Proofs.Formula.Normal
import SearchFilter.Proofs.Selector.Meaning

/-!
# The expressions of selectors

A selector whose properties all have fields has an expression. It is in normal form, its predicates
are those of the comparisons in their order, and it is true just when the selector holds.

Main statement: `Selector.exists_toExpression`.
-/

namespace SearchFilter

/-- The predicates that a comparison of a field with a value is made of. -/
def Comparator.predicates (field : Field) (value : String) : Comparator → List Predicate
  | equal => [⟨field, .eq, .exact value⟩]
  | notEqual => [⟨field, .eq, .null⟩, ⟨field, .notEq, .exact value⟩]
  | startsWith => [⟨field, .eq, .wildcard (openValue value) false⟩]
  | matching => [⟨field, .regex, .exact (elementRegex value)⟩]

namespace Comparator

variable (op : Comparator) (field : Field) (value : String)

theorem atoms_expression : (op.expression field value).atoms = op.predicates field value := by
  cases op <;> rfl

theorem isNormal_expression : (op.expression field value).IsNormal := by
  cases op with
  | equal | startsWith | matching => exact .atom _
  | notEqual =>
    refine .clause ?_ ?_
    · simp only [List.forall_mem_cons]
      exact ⟨.atom _, .atom _, nofun⟩
    · simp only [List.forall_mem_cons]
      exact ⟨nofun, nofun, nofun⟩

end Comparator

namespace Selector

/-- The properties in a selector, from left to right. -/
def properties : Selector → List String
  | comparison property _ _ => [property]
  | logical _ left right => left.properties ++ right.properties
  | group inner => inner.properties

/-- The predicates of the comparisons in a selector, from left to right. -/
def predicates (aliases : Aliases) : Selector → List Predicate
  | comparison property op value =>
    ((aliases property).map fun field => op.predicates field value).getD []
  | logical _ left right => left.predicates aliases ++ right.predicates aliases
  | group inner => inner.predicates aliases

variable {aliases : Aliases} {s : Selector} {e : Expression}

theorem isNormal_toExpression (h : s.toExpression aliases = .ok e) : e.IsNormal := by
  induction s generalizing e with
  | comparison property op value =>
    obtain ⟨field, -, rfl⟩ := toExpression_comparison_eq_ok_iff.1 h
    exact op.isNormal_expression field value
  | logical op left right ihl ihr =>
    obtain ⟨a, b, ha, hb, rfl⟩ := toExpression_logical_eq_ok_iff.1 h
    refine Formula.isNormal_flatten ?_
    rw [List.forall_mem_cons, List.forall_mem_singleton]
    exact ⟨ihl ha, ihr hb⟩
  | group inner ih => exact ih h

theorem atoms_toExpression (h : s.toExpression aliases = .ok e) :
    e.atoms = s.predicates aliases := by
  induction s generalizing e with
  | comparison property op value =>
    obtain ⟨field, hfield, rfl⟩ := toExpression_comparison_eq_ok_iff.1 h
    rw [op.atoms_expression, predicates, hfield]
    rfl
  | logical op left right ihl ihr =>
    obtain ⟨a, b, ha, hb, rfl⟩ := toExpression_logical_eq_ok_iff.1 h
    rw [Formula.atoms_flatten, List.flatMap_cons, List.flatMap_singleton, ihl ha, ihr hb,
      predicates]
  | group inner ih => exact ih h

theorem exists_toExpression_eq_ok (h : ∀ p ∈ s.properties, (aliases p).isSome = true) :
    ∃ e, s.toExpression aliases = .ok e := by
  induction s with
  | comparison property op value =>
    obtain ⟨field, hfield⟩ := Option.isSome_iff_exists.1 (h property List.mem_cons_self)
    exact ⟨_, toExpression_comparison_eq_ok_iff.2 ⟨field, hfield, rfl⟩⟩
  | logical op left right ihl ihr =>
    obtain ⟨hleft, hright⟩ := List.forall_mem_append.1 h
    obtain ⟨a, ha⟩ := ihl hleft
    obtain ⟨b, hb⟩ := ihr hright
    exact ⟨_, toExpression_logical_eq_ok_iff.2 ⟨a, b, ha, hb, rfl⟩⟩
  | group inner ih => exact ih h

/-- A selector of known properties has an expression in normal form, with the predicates of its
comparisons in their order, that is true under any truth values when the selector holds. -/
theorem exists_toExpression (h : ∀ p ∈ s.properties, (aliases p).isSome = true) :
    ∃ e, s.toExpression aliases = .ok e ∧ e.IsNormal ∧ e.atoms = s.predicates aliases ∧
      ∀ v, e.value v ↔ s.Holds v aliases := by
  obtain ⟨e, he⟩ := exists_toExpression_eq_ok h
  exact ⟨e, he, isNormal_toExpression he, atoms_toExpression he, fun _ => value_toExpression he⟩

theorem exists_toExpression_group_or :
    (∀ p ∈ properties (.logical .or (.comparison "format" .notEqual "raw")
        (.group (.logical .or (.comparison "name" .equal "a") (.comparison "version" .equal "1")))),
      (Aliases.standard p).isSome = true) ∧
    ∃ e, toExpression .standard (.logical .or (.comparison "format" .notEqual "raw")
        (.group (.logical .or (.comparison "name" .equal "a")
          (.comparison "version" .equal "1")))) = .ok e ∧ e.IsNormal ∧
      e.atoms = [⟨.format, .eq, .null⟩, ⟨.format, .notEq, .exact "raw"⟩,
        ⟨.name, .eq, .exact "a"⟩, ⟨.version, .eq, .exact "1"⟩] := by
  have hproperties : ∀ p ∈ properties (.logical .or (.comparison "format" .notEqual "raw")
      (.group (.logical .or (.comparison "name" .equal "a") (.comparison "version" .equal "1")))),
      (Aliases.standard p).isSome = true := by decide
  obtain ⟨e, he, hnormal, hatoms, -⟩ := exists_toExpression hproperties
  exact ⟨hproperties, e, he, hnormal, hatoms⟩

end Selector

end SearchFilter
