import SearchFilter.Proofs.Compile.Record
import SearchFilter.Proofs.Regex.Plain
import SearchFilter.Selector.Expression

/-!
# Selectors with regular expressions on single values

The regular expression of a selector is made one for the elements of a list whatever the column
holds. On a column with a single value, which is stored as it is, the marks of an element are looked
for in vain: no match is left but those of the alternatives that nothing is bound to.

Main statement: `Selector.truth?_of_matching`; `Selector.not_met_of_matching` is about a value that
the regular expression does match.
-/

namespace SearchFilter

open Sql Regex

/-- A database that takes regular expressions as they are read here. -/
def RegexEngine.Agrees (engine : RegexEngine) : Prop :=
  ∀ pattern text, (read? pattern).isSome = true → (engine pattern text = true ↔ Finds pattern text)

theorem RegexEngine.exists_agrees : ∃ engine : RegexEngine, engine.Agrees := by
  classical
  exact ⟨fun pattern text => decide (Finds pattern text), fun _ _ _ => decide_eq_true_iff⟩

variable {d : Dialect} {c : Column} {field : Field} {v ns : String}

/-! ## Regular expressions as terms -/

theorem isBlank_elementRegex (v : String) : isBlank (elementRegex v) = false := by
  have hparen : '(' ∈ (elementRegex v).toList := by
    have hstart : '(' ∈ elementStart.toList := by decide
    rw [toList_elementRegex]
    split
    · exact List.mem_append_left _ (List.mem_append_left _ hstart)
    · exact List.mem_append_left _ (List.mem_append_left _ hstart)
  rw [isBlank, List.all_eq_false]
  exact ⟨'(', hparen, by decide +kernel⟩

/-- A single value is matched in the column that holds it as a text. -/
theorem Column.regexColumn?_of_single (hcolumn : d.column? field = some c)
    (hsingle : c.tokenized = false) : c.regexColumn? d = some c.compared := by
  have htable : ∀ d ∈ Dialect.all, ∀ f ∈ Field.all, ∀ c ∈ d.column? f, c.tokenized = false →
      c.regexColumn? d = some c.compared := by decide
  exact htable d d.mem_all field field.mem_all c hcolumn hsingle

theorem Predicate.outcome_regex (hcolumn : d.column? field = some c) (hsingle : c.tokenized = false)
    {pattern : String} (hblank : isBlank pattern = false) :
    Predicate.outcome d ⟨field, .regex, .exact pattern⟩ =
      .rendered (.single false (.regex c.compared pattern)) := by
  refine Predicate.outcome_of_text hcolumn hblank ?_
  have hfragment : c.fragment d .regex (.text (.exact pattern)) [] =
      c.regex d (.text (.exact pattern)) := rfl
  rw [hfragment]
  unfold Column.regex
  rw [Column.regexColumn?_of_single hcolumn hsingle]
  rfl

/-! ## Texts without quotes -/

namespace Record

variable {r : Record} {engine : RegexEngine} {other : List (Token (Option Slot)) → Truth}
  {bs : List (List Regex)} {column s : String}

/-- In a text without quotes the regular expression for elements is matched where an alternative is
found that nothing is bound to. -/
theorem truth_elementRegex (hname : IsColumnName column)
    (hread : (Anchored.of v).branches? = some bs) (hagrees : engine.Agrees)
    (hrow : r.row column = some s) (hquote : '"' ∉ s.toList) :
    r.truth engine other (((Comparison.regex column (elementRegex v)).tokens d).map
        (Token.map some)) = .yes ↔
      ∃ b ∈ (Anchored.of v).elementStrands bs, b.Free ∧ (sequence b.items).Found s.toList := by
  have hsome : (read? (elementRegex v)).isSome = true := by
    rw [read?, branches?_elementRegex hread]
    rfl
  rw [← finds_elementRegex_iff_of_no_quote hread hquote, ← hagrees _ _ hsome,
    truth_regex _ _ _ hname, Truth.ofTest_eq_yes_iff, hrow]
  simp

/-- Something is bound to every alternative of a regular expression that has no anchor at its start,
or has no other alternative. -/
theorem truth_elementRegex_of_bound (hname : IsColumnName column)
    (hread : (Anchored.of v).branches? = some bs) (hagrees : engine.Agrees)
    (hrow : r.row column = some s) (hquote : '"' ∉ s.toList)
    (hbound : (Anchored.of v).fromStart = false ∨ bs.length ≤ 1) :
    r.truth engine other (((Comparison.regex column (elementRegex v)).tokens d).map
        (Token.map some)) = .no := by
  have hnot : r.truth engine other (((Comparison.regex column (elementRegex v)).tokens d).map
      (Token.map some)) ≠ .yes := by
    intro hyes
    obtain ⟨b, hb, hfree, -⟩ := (truth_elementRegex hname hread hagrees hrow hquote).1 hyes
    exact not_free_of_mem_elementStrands hbound hb hfree
  rw [truth_regex _ _ _ hname, hrow, Truth.ofTest] at hnot ⊢
  split at hnot
  · exact absurd rfl hnot
  · next hfalse => rw [if_neg hfalse]

end Record

/-! ## Selectors -/

namespace Selector

variable {aliases : Aliases} {property : String}

/-- A comparison with a regular expression has an expression and, on a column with a single value, a
condition that is the search of the regular expression for elements in the text of the column. In a
text without quotes it finds the alternatives that nothing is bound to, so that it is met only where
the given regular expression is found, and never if that one has no anchor at its start or has a
single alternative. -/
theorem truth?_of_matching (hfield : aliases property = some field)
    (hcolumn : d.column? field = some c) (hsingle : c.tokenized = false)
    (hns : isIdentifier ns.toList = true) :
    ∃ (e : Expression) (cond : Condition),
      toExpression aliases (.comparison property .matching v) = .ok e ∧
      e.compile d ns = .ok cond ∧
      cond.reading = some (.atom (((Comparison.regex c.compared (elementRegex v)).tokens d).map
        (Token.map some))) ∧
      (∀ (r : Record) engine other, cond.truth? (r.truth engine other) =
        some (.ofTest (engine (elementRegex v)) (r.row c.compared))) ∧
      ∀ bs, (Anchored.of v).branches? = some bs → ∀ (r : Record) (engine : RegexEngine) other s,
        engine.Agrees → r.row c.compared = some s → '"' ∉ s.toList →
          (cond.truth? (r.truth engine other) = some .yes ↔
            ∃ b ∈ (Anchored.of v).elementStrands bs, b.Free ∧ (sequence b.items).Found s.toList) ∧
          (cond.truth? (r.truth engine other) = some .yes → Finds v s) ∧
          ((Anchored.of v).fromStart = false ∨ bs.length ≤ 1 →
            cond.truth? (r.truth engine other) = some .no) := by
  have hname := isColumnName_of_mem (mem_columnNames hcolumn c.compared_mem_names)
  have hexpression : toExpression aliases (.comparison property .matching v) =
      .ok (Expression.compare field .regex (.exact (elementRegex v))) := by
    rw [toExpression, hfield]
    rfl
  obtain ⟨cond, hcond, hreading, htruth⟩ := Expression.compile_of_single hns
    (Predicate.outcome_regex hcolumn hsingle (isBlank_elementRegex v))
  refine ⟨_, cond, hexpression, hcond, hreading, fun r engine other => ?_, ?_⟩
  · rw [htruth, Record.truth_regex _ _ _ hname]
  · intro bs hread r engine other s hagrees hrow hquote
    simp only [htruth, Option.some.injEq]
    refine ⟨Record.truth_elementRegex hname hread hagrees hrow hquote, fun hyes => ?_,
      fun hbound => ?_⟩
    · obtain ⟨b, hb, hfree, hfound⟩ :=
        (Record.truth_elementRegex hname hread hagrees hrow hquote).1 hyes
      exact finds_of_free hread hb hfree hfound
    · exact Record.truth_elementRegex_of_bound hname hread hagrees hrow hquote hbound

/-- Of two alternatives the second is found in a format, as the anchor belongs to the first. -/
theorem truth?_of_matching_second :
    ∃ (e : Expression) (cond : Condition),
      toExpression .standard (.comparison "format" .matching "^a|b") = .ok e ∧
      e.compile .h2 "filterParams" = .ok cond ∧
      ∃ engine : RegexEngine, engine.Agrees ∧ ∀ other, cond.truth? (Record.truth
        ⟨fun column => if column = "format" then some "xb" else none, fun _ => none⟩
        engine other) = some .yes := by
  obtain ⟨e, cond, he, hcond, -, -, hmet⟩ := truth?_of_matching (v := "^a|b")
    (show Aliases.standard "format" = some .format by decide)
    (show Dialect.h2.column? .format = some (.plain "format") from rfl) rfl
    (show isIdentifier "filterParams".toList = true by decide)
  obtain ⟨engine, hagrees⟩ := RegexEngine.exists_agrees
  refine ⟨e, cond, he, hcond, engine, hagrees, fun other => ?_⟩
  have hread : (Anchored.of "^a|b").branches? = some [[.char 'a'], [.char 'b']] := by
    decide +kernel
  refine ((hmet _ hread _ engine other "xb" hagrees rfl (by decide)).1).2
    ⟨⟨false, [.char 'b'], false⟩, by decide, ⟨rfl, rfl⟩, ['x'], ['b'], [], rfl, ?_⟩
  exact matches_sequence_singleton_iff.2 .char

/-- The regular expression is found in the format, but its condition is not met in any dialect. -/
theorem not_met_of_matching :
    Finds "maven2" "maven2" ∧
    ∀ d : Dialect, ∃ (e : Expression) (cond : Condition),
      toExpression .standard (.comparison "format" .matching "maven2") = .ok e ∧
      e.compile d "filterParams" = .ok cond ∧
      ∀ (r : Record) (engine : RegexEngine) other, engine.Agrees → r.row "format" = some "maven2" →
        cond.truth? (r.truth engine other) = some .no := by
  have hread : (Anchored.of "maven2").branches? = some ["maven2".toList.map .char] := by
    decide +kernel
  refine ⟨?_, fun d => ?_⟩
  · rw [finds_iff_of_branches? (branches?_of_anchored hread)]
    refine ⟨_, List.mem_singleton.2 rfl, [], "maven2".toList, [], rfl, ?_⟩
    exact (hasWord_sequence_chars_iff "maven2".toList).2 rfl
  · have hcolumn : d.column? .format = some (.plain "format") := by cases d <;> rfl
    have hname : IsColumnName "format" :=
      isColumnName_of_mem (mem_columnNames hcolumn (Column.matched_mem_names _))
    obtain ⟨cond, hcond, -, htruth⟩ := Expression.compile_of_single
      (show isIdentifier "filterParams".toList = true by decide)
      (Predicate.outcome_regex hcolumn rfl (isBlank_elementRegex "maven2"))
    refine ⟨_, cond, rfl, hcond, fun r engine other hagrees hrow => ?_⟩
    rw [htruth]
    exact congrArg some (Record.truth_elementRegex_of_bound hname hread hagrees hrow (by decide)
      (.inl (by decide)))

end Selector

end SearchFilter
