import SearchFilter.Proofs.Compile.Membership
import SearchFilter.Proofs.Compile.Negation
import SearchFilter.Proofs.Selector.Meaning

/-!
# Equal or not equal

To be different from a value is said in two predicates, since a component without a value is
different from all of them. Whatever the columns of the field are like, the second predicate negates
the very test that equality comes down to. So a row meets one of the two conditions, and never both.

Main statement: `Selector.xor_equal_notEqual`.
-/

namespace SearchFilter

open Sql

/-- A test that is known wherever there is a value is passed, or else there is no value or the test
is failed. -/
theorem Row.xor_lacks {row : Row} {column : String} {t : Truth}
    (h : t = .unknown ↔ row column = none) :
    Xor (t = .yes) (row.lacks column ⊔ t.neg = .yes) := by
  rw [Truth.sup_eq_yes, Truth.neg_eq_yes, lacks]
  cases t with
  | unknown =>
    rw [if_pos (h.1 rfl)]
    exact .inr ⟨.inl rfl, nofun⟩
  | yes =>
    rw [if_neg (mt h.2 nofun)]
    exact .inl ⟨rfl, by simp⟩
  | no => exact .inr ⟨.inr rfl, nofun⟩

namespace Expression

variable {d : Dialect} {ns : String} {field : Field} {c : Column} {p : Pattern}

/-- To be absent or different from a text is told by the test that to be equal to it is told by. -/
theorem exists_compile_different (hns : isIdentifier ns.toList = true)
    (hcolumn : d.column? field = some c) (hblank : p.isBlank = false) :
    ∃ different, compile d ns (.clause .or (compare field .eq .null)
        [compare field .notEq (.scalar (.text p))]) = .ok different ∧
      ∀ (row : Row) (engine : ComparisonEngine), different.truth? (row.verdict engine) =
        some (row.lacks c.compared ⊔
          (row.verdict engine (((c.comparison d true p).tokens d).map (Token.map some))).neg) := by
  have hnull : Predicate.outcome d ⟨field, .eq, .null⟩ =
      .rendered (.single false (.absent c.compared)) :=
    Predicate.outcome_eq_rendered hcolumn rfl (c.fragment_eq_null d)
  have hother := Predicate.outcome_of_text hcolumn hblank (c.fragment_notEq_text d p)
  have hrendered : ∀ q ∈ Formula.atoms (.clause .or (compare field .eq .null)
      [compare field .notEq (.scalar (.text p))]), ∃ f, q.outcome d = .rendered f := by
    rw [Formula.forall_mem_atoms_clause, List.forall_mem_cons, List.forall_mem_singleton, compare,
      compare, Formula.atoms_atom, Formula.atoms_atom, List.forall_mem_singleton,
      List.forall_mem_singleton]
    exact ⟨⟨_, hnull⟩, _, hother⟩
  obtain ⟨different, hcompile, htruth⟩ := exists_compile_of_rendered hns hrendered
  refine ⟨different, hcompile, fun row engine => ?_⟩
  have hcompared : IsColumnName c.compared :=
    isColumnName_of_mem (mem_columnNames hcolumn c.compared_mem_names)
  rw [htruth, ← row.verdict_absent engine (d := d) hcompared,
    ← predicateTruth_of_single hnull (row.verdict engine),
    ← predicateTruth_of_negated hother row engine]
  rfl

end Expression

namespace Selector

variable {aliases : Aliases} {property value ns : String} {field : Field} {d : Dialect} {c : Column}

/-- A row meets just one of the conditions of `==` and `!=`, if the columns of the property have
values together. -/
theorem xor_equal_notEqual (hns : isIdentifier ns.toList = true)
    (hproperty : aliases property = some field) (hcolumn : d.column? field = some c)
    (hblank : isBlank value = false) :
    ∃ e e' : Expression, ∃ equal different : Condition,
      toExpression aliases (.comparison property .equal value) = .ok e ∧
      toExpression aliases (.comparison property .notEqual value) = .ok e' ∧
      e.compile d ns = .ok equal ∧ e'.compile d ns = .ok different ∧
      ∀ (row : Row) (engine : ComparisonEngine),
        (row c.compared = none ↔ row c.matched = none) →
          ∃ t t' : Truth, equal.truth? (row.verdict engine) = some t ∧
            different.truth? (row.verdict engine) = some t' ∧ Xor (t = .yes) (t' = .yes) := by
  have hpattern : (Pattern.exact value).isBlank = false := hblank
  have hname := c.column_comparison_mem_names d (.exact value)
  obtain ⟨equal, hequal, -, htruth⟩ := Expression.compile_of_single hns
    (Predicate.outcome_of_text hcolumn hpattern (c.fragment_eq_text d (.exact value)))
  obtain ⟨different, hdifferent, htruth'⟩ :=
    Expression.exists_compile_different hns hcolumn hpattern
  refine ⟨_, _, equal, different, toExpression_comparison_eq_ok_iff.2 ⟨field, hproperty, rfl⟩,
    toExpression_comparison_eq_ok_iff.2 ⟨field, hproperty, rfl⟩, hequal, hdifferent,
    fun row engine htogether => ⟨_, _, htruth _, htruth' row engine, Row.xor_lacks ?_⟩⟩
  -- Both conditions ask about one column, which has a value just when the other one has.
  have habsent : row ((c.comparison d true (.exact value)).column) = none ↔
      row c.compared = none := by
    rcases Column.mem_names_iff.1 hname with hmatched | hcompared
    · rw [hmatched, htogether]
    · rw [hcompared]
  rw [row.verdict_tokens engine (isColumnName_of_mem (mem_columnNames hcolumn hname))
    (Column.comparison_ne_absent true), Truth.ofTest_eq_unknown_iff, habsent]

/-- Only one of the two can hold of a component with a path. -/
theorem xor_equal_notEqual_path :
    ∃ e e' : Expression, ∃ equal different : Condition,
      toExpression .standard (.comparison "path" .equal "/org/a.jar") = .ok e ∧
      toExpression .standard (.comparison "path" .notEqual "/org/a.jar") = .ok e' ∧
      e.compile .postgres "filterParams" = .ok equal ∧
      e'.compile .postgres "filterParams" = .ok different ∧
      ∃ t t' : Truth,
        equal.truth? (Row.verdict (fun _ => some "/org/a.jar") fun _ text => text == "/org/a.jar") =
          some t ∧
        different.truth?
          (Row.verdict (fun _ => some "/org/a.jar") fun _ text => text == "/org/a.jar") =
            some t' ∧ Xor (t = .yes) (t' = .yes) := by
  obtain ⟨e, e', equal, different, he, he', hequal, hdifferent, hxor⟩ :=
    xor_equal_notEqual (show isIdentifier "filterParams".toList = true by decide)
      (show Aliases.standard "path" = some .paths by decide)
      (show Dialect.postgres.column? .paths = some (Dialect.vectorColumn .paths) from rfl)
      (show isBlank "/org/a.jar" = false by decide +kernel)
  exact ⟨e, e', equal, different, he, he', hequal, hdifferent, hxor _ _ Iff.rfl⟩

end Selector

end SearchFilter
