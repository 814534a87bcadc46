import SearchFilter.Proofs.Compile.Comparison
import SearchFilter.Proofs.Compile.Record
import SearchFilter.Proofs.Compile.Restriction

/-!
# Membership

A field is in a collection when it is equal to one of the members. Each member is compared as it
would be alone, unless it is a text that is singled out: next to others such a text is searched for
in the text of the column, as all others are.

Main statement: `Expression.truth?_oneOf`; `Expression.not_membership_of_exact` has two exact texts.
-/

namespace SearchFilter

open Sql

/-! ## Truth -/

namespace Row

variable {row : Row} {column : String}

theorem among_cons (value : String) (values : List String) :
    row.among column (value :: values) = row.among column [value] ⊔ row.among column values := by
  unfold among
  cases row column with
  | none => rfl
  | some stored =>
    dsimp only
    by_cases hfirst : stored = value
    · rw [if_pos (List.mem_cons.2 (.inl hfirst)), if_pos (List.mem_singleton.2 hfirst)]
      split <;> decide
    · rw [if_neg (mt List.mem_singleton.1 hfirst)]
      simp only [List.mem_cons, hfirst, false_or]
      split <;> decide

/-- A column has one of several values when it has one of them. -/
theorem among_eq_combine (value : String) (values : List String) :
    row.among column (value :: values) =
      Connective.or.combine (row.among column [value])
        (values.map fun value => row.among column [value]) := by
  induction values generalizing value with
  | nil => rfl
  | cons second values ih =>
    rw [among_cons, ih, List.map_cons, Connective.combine_cons]
    rfl

/-- The truth value of a comparison in a row, as a dialect writes it. -/
def comparisonTruth (d : Dialect) (row : Row) (other : List (Token (Option Slot)) → Truth)
    (c : Comparison) : Truth :=
  row.truth other ((c.tokens d).map (Token.map some))

end Row

/-- A record with a text in one column, and no text in the others. -/
def Record.storing (column text : String) (vector : String → Option SearchVector) : Record :=
  ⟨fun c => if c = column then some text else none, vector⟩

theorem Predicate.effective_of_texts {ts : TermCollection} {ps : List Pattern}
    (hts : ts.members = ps.map .text) (hblank : ∀ p ∈ ps, p.isBlank = false) (field : Field)
    (op : Operand) : Predicate.effective ⟨field, op, .collection ts⟩ = ps.map .text := by
  rw [effective, Term.members, hts, List.filter_eq_self, List.forall_mem_map]
  exact fun p hp => congrArg (!·) (hblank p hp)

namespace Expression

variable {d : Dialect} {ns : String} {field : Field} {c : Column} {ts : TermCollection}
  {first : Pattern} {rest : List Pattern}

/-- Where every predicate is rendered there is a condition, with the value of the expression. -/
theorem exists_compile_of_rendered (hns : isIdentifier ns.toList = true) {e : Expression}
    (h : ∀ p ∈ e.atoms, ∃ f, p.outcome d = .rendered f) :
    ∃ cond, e.compile d ns = .ok cond ∧
      ∀ w, cond.truth? w = some (e.value (predicateTruth d w)) := by
  have hissues : ∀ p ∈ e.atoms, (p.outcome d).issue? = none := by
    intro p hp
    obtain ⟨f, hf⟩ := h p hp
    rw [hf]
    rfl
  have hkept : ∀ p ∈ e.atoms, ¬ p.Dropped d := by
    intro p hp hdropped
    obtain ⟨f, hf⟩ := h p hp
    rw [Predicate.outcome_eq_dropped_iff.2 hdropped] at hf
    cases hf
  obtain ⟨cond, hok⟩ : ∃ cond, e.compile d ns = .ok cond :=
    ⟨_, compile_eq_ok_iff.2 ⟨hissues, rfl⟩⟩
  refine ⟨cond, hok, fun w => ?_⟩
  rw [truth?_eq_remaining hns hok, Formula.remaining_of_forall hkept]

/-- A field is equal to a text when the comparison with that text alone holds. -/
theorem predicateTruth_eq_text (hcolumn : d.column? field = some c) {p : Pattern}
    (hblank : p.isBlank = false) (row : Row) (other : List (Token (Option Slot)) → Truth) :
    predicateTruth d (row.truth other) ⟨field, .eq, .scalar (.text p)⟩ =
      row.comparisonTruth d other (c.comparison d true p) :=
  predicateTruth_of_single (Predicate.outcome_of_text hcolumn hblank (c.fragment_eq_text d p)) _

/-- A field is in a collection when the comparison with one of its texts holds. -/
theorem predicateTruth_oneOf (hcolumn : d.column? field = some c)
    (hts : ts.members = (first :: rest).map .text)
    (hblank : ∀ p ∈ first :: rest, p.isBlank = false) :
    ∃ f, Predicate.outcome d ⟨field, .oneOf, .collection ts⟩ = .rendered f ∧
      ∀ (row : Row) (other : List (Token (Option Slot)) → Truth),
        predicateTruth d (row.truth other) ⟨field, .oneOf, .collection ts⟩ =
          Connective.or.combine (row.comparisonTruth d other (c.comparison d rest.isEmpty first))
            (rest.map fun p => row.comparisonTruth d other (c.comparison d rest.isEmpty p)) := by
  have heffective := Predicate.effective_of_texts hts hblank field .oneOf
  by_cases h : c.comparesWhole (.text first) (rest.map .text) = true
  · have hrendered : Predicate.outcome d ⟨field, .oneOf, .collection ts⟩ = .rendered _ :=
      Predicate.outcome_eq_rendered hcolumn heffective (Column.fragment_oneOf_whole h)
    have hcompared : IsColumnName c.compared :=
      isColumnName_of_mem (mem_columnNames hcolumn c.compared_mem_names)
    refine ⟨_, hrendered, fun row other => ?_⟩
    have hequals : ∀ p ∈ first :: rest, row.among c.compared [p.value] =
        row.comparisonTruth d other (c.comparison d rest.isEmpty p) := by
      intro p hp
      rw [Column.comparison_of_comparesWhole h p hp]
      exact (row.truth_equals other hcompared p.value).symm
    rw [predicateTruth_of_single hrendered, row.truth_oneOf other hcompared, Row.among_eq_combine,
      List.map_map, hequals first List.mem_cons_self]
    exact congrArg _ (List.map_congr_left fun p hp => hequals p (List.mem_cons_of_mem first hp))
  · have hrendered : Predicate.outcome d ⟨field, .oneOf, .collection ts⟩ = .rendered _ :=
      Predicate.outcome_eq_rendered hcolumn heffective (Column.fragment_oneOf_search h)
    refine ⟨_, hrendered, fun row other => ?_⟩
    rw [predicateTruth_of_comparisons hrendered, List.map_map]
    rfl

/-- The clause of equalities with texts has a condition. -/
theorem exists_compile_equalities (hns : isIdentifier ns.toList = true)
    (hcolumn : d.column? field = some c) (hblank : ∀ p ∈ first :: rest, p.isBlank = false) :
    ∃ each, compile d ns (.clause .or (compare field .eq (.scalar (.text first)))
        (rest.map fun p => compare field .eq (.scalar (.text p)))) = .ok each ∧
      ∀ (row : Row) (other : List (Token (Option Slot)) → Truth),
        each.truth? (row.truth other) = some (Connective.or.combine
          (row.comparisonTruth d other (c.comparison d true first))
          (rest.map fun p => row.comparisonTruth d other (c.comparison d true p))) := by
  have hrendered : ∀ q ∈ Formula.atoms (.clause .or (compare field .eq (.scalar (.text first)))
      (rest.map fun p => compare field .eq (.scalar (.text p)))),
        ∃ f, q.outcome d = .rendered f := by
    rw [Formula.forall_mem_atoms_clause, ← List.map_cons
      (f := fun p => compare field .eq (.scalar (.text p))), List.forall_mem_map]
    intro p hp
    rw [compare, Formula.atoms_atom, List.forall_mem_singleton]
    exact ⟨_, Predicate.outcome_of_text hcolumn (hblank p hp) (c.fragment_eq_text d p)⟩
  obtain ⟨each, heach, htruth⟩ := exists_compile_of_rendered hns hrendered
  refine ⟨each, heach, fun row other => ?_⟩
  have hvalue : ∀ p ∈ first :: rest, (compare field .eq (.scalar (.text p))).value
      (predicateTruth d (row.truth other)) =
        row.comparisonTruth d other (c.comparison d true p) :=
    fun p hp => predicateTruth_eq_text hcolumn (hblank p hp) row other
  rw [htruth, Formula.value_clause, List.map_map, hvalue first List.mem_cons_self]
  exact congrArg (fun l => some (Connective.or.combine _ l))
    (List.map_congr_left fun p hp => hvalue p (List.mem_cons_of_mem first hp))

/-- The predicate of a collection of texts has a condition. -/
theorem exists_compile_oneOf (hns : isIdentifier ns.toList = true)
    (hcolumn : d.column? field = some c) (hts : ts.members = (first :: rest).map .text)
    (hblank : ∀ p ∈ first :: rest, p.isBlank = false) :
    ∃ within, (compare field .oneOf (.collection ts)).compile d ns = .ok within ∧
      ∀ (row : Row) (other : List (Token (Option Slot)) → Truth),
        within.truth? (row.truth other) = some (Connective.or.combine
          (row.comparisonTruth d other (c.comparison d rest.isEmpty first))
          (rest.map fun p => row.comparisonTruth d other (c.comparison d rest.isEmpty p))) := by
  obtain ⟨f, hrendered, hvalue⟩ := predicateTruth_oneOf hcolumn hts hblank
  have hall : ∀ q ∈ (compare field .oneOf (.collection ts)).atoms,
      ∃ f, q.outcome d = .rendered f := by
    rw [compare, Formula.atoms_atom, List.forall_mem_singleton]
    exact ⟨f, hrendered⟩
  obtain ⟨within, hwithin, htruth⟩ := exists_compile_of_rendered hns hall
  refine ⟨within, hwithin, fun row other => ?_⟩
  rw [htruth, ← hvalue]
  rfl

/-- To be in a collection of texts is to be equal to one of them, each text compared as if it were
the only one or, where there are others, as one of several. The two ways are the same but for texts
that are singled out; without these, or with a single text, a row meets the condition of `IN` just
when it meets that of the clause of equalities. -/
theorem truth?_oneOf (hns : isIdentifier ns.toList = true) (hcolumn : d.column? field = some c)
    (hts : ts.members = (first :: rest).map .text)
    (hblank : ∀ p ∈ first :: rest, p.isBlank = false) :
    ∃ within each : Condition,
      (compare field .oneOf (.collection ts)).compile d ns = .ok within ∧
      compile d ns (.clause .or (compare field .eq (.scalar (.text first)))
        (rest.map fun p => compare field .eq (.scalar (.text p)))) = .ok each ∧
      (∀ (row : Row) (other : List (Token (Option Slot)) → Truth),
        within.truth? (row.truth other) = some (Connective.or.combine
          (row.comparisonTruth d other (c.comparison d rest.isEmpty first))
          (rest.map fun p => row.comparisonTruth d other (c.comparison d rest.isEmpty p))) ∧
        each.truth? (row.truth other) = some (Connective.or.combine
          (row.comparisonTruth d other (c.comparison d true first))
          (rest.map fun p => row.comparisonTruth d other (c.comparison d true p)))) ∧
      (∀ p, c.comparison d false p = c.comparison d true p ↔ ¬ c.SinglesOut d p) ∧
      (rest = [] ∨ (∀ p ∈ first :: rest, ¬ c.SinglesOut d p) →
        ∀ (row : Row) (other : List (Token (Option Slot)) → Truth),
          within.truth? (row.truth other) = each.truth? (row.truth other)) := by
  obtain ⟨within, hwithin, htruth⟩ := exists_compile_oneOf hns hcolumn hts hblank
  obtain ⟨each, heach, htruth'⟩ := exists_compile_equalities hns hcolumn hblank
  refine ⟨within, each, hwithin, heach, fun row other => ⟨htruth row other, htruth' row other⟩,
    fun p => Column.comparison_eq_iff, fun h row other => ?_⟩
  rw [htruth, htruth']
  rcases h with rfl | hnone
  · rfl
  · cases rest with
    | nil => rfl
    | cons second rest =>
      have hsame : ∀ p ∈ first :: second :: rest,
          row.comparisonTruth d other (c.comparison d false p) =
            row.comparisonTruth d other (c.comparison d true p) :=
        fun p hp => congrArg _ (Column.comparison_eq_iff.2 (hnone p hp))
      rw [List.isEmpty_cons, hsame first List.mem_cons_self]
      exact congrArg (fun l => some (Connective.or.combine _ l))
        (List.map_congr_left fun p hp => hsame p (List.mem_cons_of_mem first hp))

/-- Lenient texts are searched for in either way. -/
theorem truth?_oneOf_lenient :
    ∃ within each : Condition,
      compile .postgres "p" (compare .name .oneOf (.collection
        (.ofScalars [.text (.lenient "log4j"), .text (.lenient "slf4j-api")] (by decide)))) =
          .ok within ∧
      compile .postgres "p" (.clause .or (compare .name .eq (.lenient "log4j"))
        [compare .name .eq (.lenient "slf4j-api")]) = .ok each ∧
      ∀ (row : Row) (other : List (Token (Option Slot)) → Truth),
        within.truth? (row.truth other) = each.truth? (row.truth other) := by
  have hmembers : (TermCollection.ofScalars [.text (.lenient "log4j"), .text (.lenient "slf4j-api")]
      (by decide)).members = [Pattern.lenient "log4j", .lenient "slf4j-api"].map .text := by
    decide
  obtain ⟨within, each, hwithin, heach, -, -, hsame⟩ :=
    truth?_oneOf (show isIdentifier "p".toList = true by decide)
      (show Dialect.postgres.column? .name = some (Dialect.vectorColumn .name) from rfl) hmembers
      (by decide +kernel)
  refine ⟨within, each, hwithin, heach, hsame (.inr fun p hp h => ?_)⟩
  have hkind : p.kind = .lenient := by
    rcases List.mem_pair.1 hp with rfl | rfl <;> rfl
  rcases h.kind with hexact | ⟨-, -, hwildcard, -⟩
  · cases hkind.symm.trans hexact
  · cases hkind.symm.trans hwildcard

/-- Next to another one, an exact name is met by longer names that contain it. -/
theorem not_membership_of_exact :
    ∃ within each : Condition,
      compile .h2 "filterParams" (compare .name .oneOf (.exactValues ["guava", "junit"])) =
        .ok within ∧
      compile .h2 "filterParams" (.clause .or (compare .name .eq (.exact "guava"))
        [compare .name .eq (.exact "junit")]) = .ok each ∧
      ∀ vector engine other,
        within.truth? ((Record.storing "search_component_name" "guava-testlib" vector).truth
          engine other) = some .yes ∧
        each.truth? ((Record.storing "search_component_name" "guava-testlib" vector).truth
          engine other) = some .no := by
  have hns : isIdentifier "filterParams".toList = true := by decide
  have hcolumn : Dialect.h2.column? .name =
      some ((Column.searchable "search_component_name").withSort "search_component_name") := rfl
  have hname : IsColumnName "search_component_name" :=
    isColumnName_of_mem (mem_columnNames hcolumn (Column.matched_mem_names _))
  have hblank : ∀ p ∈ [Pattern.exact "guava", .exact "junit"], p.isBlank = false := by
    decide +kernel
  have hmembers : (TermCollection.ofValues ["guava", "junit"]).members =
      [Pattern.exact "guava", .exact "junit"].map .text := by
    decide
  obtain ⟨within, hwithin, htruth⟩ := exists_compile_oneOf hns hcolumn hmembers hblank
  obtain ⟨each, heach, htruth'⟩ := exists_compile_equalities hns hcolumn hblank
  refine ⟨within, each, hwithin, heach, fun vector engine other => ⟨?_, ?_⟩⟩
  · refine (htruth _ _).trans (congrArg some ?_)
    rw [Connective.combine_or_eq_yes_iff]
    refine ⟨_, List.mem_cons_self, ?_⟩
    refine (Record.truth_likeAnyCase _ engine other hname "%guava%").trans ?_
    exact Truth.ofTest_eq_yes_iff.2 ⟨"guava-testlib", rfl, by decide +kernel⟩
  · have hno : ∀ value, "guava-testlib" ≠ value →
        (Record.storing "search_component_name" "guava-testlib" vector).truth engine other
          (((Comparison.equals "search_component_name" value).tokens .h2).map (Token.map some)) =
            .no := by
      intro value hne
      rw [Record.truth_equals _ engine other hname]
      exact if_neg (mt List.mem_singleton.1 hne)
    have hneither := congrArg₂ (fun x y => Connective.or.combine x [y])
      (hno "guava" (by decide)) (hno "junit" (by decide))
    exact (htruth' _ _).trans (congrArg some hneither)

end Expression

end SearchFilter
