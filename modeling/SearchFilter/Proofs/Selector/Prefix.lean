import SearchFilter.Proofs.Compile.Comparison
import SearchFilter.Proofs.Compile.Record
import SearchFilter.Proofs.Pattern.AnyCase
import SearchFilter.Proofs.Pattern.Lexemes
import SearchFilter.Selector.Expression

/-!
# Selectors that ask for a prefix

A comparison with a prefix is a comparison with a wildcard that is open at its end. In a column with
text search it is written as a pattern, or as a query for a lexeme that is open at its end, and it
is met wherever the text starts with the prefix. In a column without text search the wildcard is
taken as it stands, star and all: there the condition is met by that one text.

Main statement: `Selector.truth?_of_startsWith`; `Selector.not_met_of_startsWith` is about a column
without text search.
-/

namespace SearchFilter

open Sql

/-- A comparison with a pattern, or with a query that is open at its end. -/
def Comparison.IsOpen : Comparison → Prop
  | like _ _ | likeAnyCase _ _ => True
  | search _ query => query.whole.openEnded = true
  | absent _ | equals _ _ | oneOf _ _ _ | regex _ _ => False

variable {v : String}

theorem Comparator.openValue_of_not_mem (h : '*' ∉ v.toList) : openValue v = v ++ "*" :=
  if_neg fun hlast => h (List.mem_of_getLast? hlast)

/-! ## Wildcards that are open at their end -/

namespace Pattern

/-- A prefix that says something makes a wildcard that does. -/
theorem isBlank_open (hblank : SearchFilter.isBlank v = false) (hstar : '*' ∉ v.toList) :
    (wildcard (v ++ "*") false).isBlank = false := by
  obtain ⟨c, hc, hspace⟩ : ∃ c ∈ v.toList, isSpace c = false := by
    simpa [SearchFilter.isBlank] using hblank
  have hne : c ≠ '*' := ne_of_mem_of_not_mem hc hstar
  rw [isBlank, List.all_eq_false]
  refine ⟨c, by rw [String.toList_append]; exact List.mem_append_left _ hc, ?_⟩
  simp [hne, hspace]

theorem query_open (hstar : '*' ∉ v.toList) :
    (wildcard (v ++ "*") false).query = ⟨⟨lowercase v, true⟩, none⟩ := by
  have hstarless : starless (v ++ "*").toList = v.toList := by
    have hself : starless v.toList = v.toList :=
      List.filter_eq_self.2 fun c hc => by simpa using ne_of_mem_of_not_mem hc hstar
    rw [String.toList_append, starless, List.filter_append, ← starless, hself]
    exact List.append_nil _
  rw [query, withoutStars, hstarless, String.ofList_toList]
  rfl

end Pattern

/-- The search vector of a column has the whole text, in lower case, among its lexemes. -/
def Record.Indexes (r : Record) (c : Column) (s : String) : Prop :=
  ∃ lexemes, r.vector c.matched = some lexemes ∧ ∃ place, (lowercase s, place) ∈ lexemes

/-- A query for the start of a lexeme is answered. -/
theorem Record.answersAny_open {lexemes : SearchVector} {text : String} {place : ℕ}
    (hmem : (text, place) ∈ lexemes) {start : String} (hstart : start.toList <+: text.toList) :
    answersAny (TextQuery.texts ⟨⟨start, true⟩, none⟩) lexemes = true := by
  have hanswers : lexemes.answers [⟨start, true⟩] = true :=
    SearchVector.answers_singleton_iff.2 ⟨_, hmem, List.isPrefixOf_iff_prefix.2 hstart⟩
  rw [answersAny, List.any_eq_true]
  refine ⟨_, List.mem_cons_self, ?_⟩
  rw [TextQuery.wholeText, readPhrase?_render]
  exact hanswers

/-! ## Columns -/

namespace Column

variable {d : Dialect} {c : Column}

/-- The comparison of a column with a prefix. -/
def prefixComparison (d : Dialect) (c : Column) (v : String) : Comparison :=
  if c.fulltext then
    match c.dotted? d (.text (.wildcard (v ++ "*") false)) [] with
    | some (column, pattern) => .like column pattern
    | none => (c.searchTest d false (.text (.wildcard (v ++ "*") false))).comparison
  else .equals c.compared (v ++ "*")

theorem comparison_open (d : Dialect) (c : Column) (v : String) :
    c.comparison d true (.wildcard (v ++ "*") false) = c.prefixComparison d v := by
  unfold comparison prefixComparison
  cases c.fulltext with
  | false => rfl
  | true => exact (if_neg (by simp [Pattern.kind])).trans rfl

theorem fragment_open (d : Dialect) (c : Column) (v : String) :
    c.fragment d .eq (.text (.wildcard (v ++ "*") false)) [] =
      .ok (.single false (c.prefixComparison d v)) := by
  rw [fragment_eq_text, comparison_open]

theorem prefixComparison_of_plain (h : c.fulltext = false) :
    c.prefixComparison d v = .equals c.compared (v ++ "*") := by
  rw [prefixComparison, h]
  rfl

/-- A prefix in a column with text search: a pattern for the start of the plain text, a query for
the start of a lexeme, or a pattern for a part of the text. -/
theorem prefixComparison_cases (h : c.fulltext = true) (hstar : '*' ∉ v.toList) :
    d = .postgres ∧
        c.prefixComparison d v = .like c.compared (prefixPattern (v ++ "*")) ∨
      d = .postgres ∧
        c.prefixComparison d v = .search c.matched ⟨⟨lowercase v, true⟩, none⟩ ∨
      d = .h2 ∧
        c.prefixComparison d v =
          .likeAnyCase c.matched (Pattern.wildcard (v ++ "*") false).containing := by
  unfold prefixComparison
  rw [if_pos h]
  cases d with
  | h2 => exact .inr (.inr ⟨rfl, rfl⟩)
  | postgres =>
    rw [← Pattern.query_open hstar]
    unfold dotted? compared
    cases c.companion? with
    | none => exact .inr (.inl ⟨rfl, rfl⟩)
    | some column =>
      dsimp only
      split
      · next column' pattern heq =>
        split at heq
        · cases heq
          exact .inl ⟨rfl, rfl⟩
        · cases heq
      · exact .inr (.inl ⟨rfl, rfl⟩)

theorem isOpen_prefixComparison (h : c.fulltext = true) (hstar : '*' ∉ v.toList) :
    (c.prefixComparison d v).IsOpen := by
  rcases prefixComparison_cases (d := d) h hstar with ⟨-, heq⟩ | ⟨-, heq⟩ | ⟨-, heq⟩
  · rw [heq]
    trivial
  · rw [heq]
    rfl
  · rw [heq]
    trivial

end Column

theorem Dialect.companion?_of_h2 {field : Field} {c : Column} (h : h2.column? field = some c) :
    c.companion? = none := by
  have htable : ∀ f ∈ Field.all, ∀ c ∈ h2.column? f, c.companion? = none := by decide
  exact htable field field.mem_all c h

namespace Record

variable {d : Dialect} {c : Column} {field : Field} {r : Record} {engine : RegexEngine}
  {other : List (Token (Option Slot)) → Truth} {s : String}

/-- A column with text search meets the comparison with a prefix wherever its text starts with the
prefix. -/
theorem truth_prefixComparison (hcolumn : d.column? field = some c) (hfulltext : c.fulltext = true)
    (hne : v.toList ≠ []) (hstar : '*' ∉ v.toList) (hsigma : ¬ EndsInSigma v.toList)
    (hs : r.row c.compared = some s) (hindex : d = .postgres → r.Indexes c s)
    (hstarts : v.toList <+: s.toList) :
    r.truth engine other (((c.prefixComparison d v).tokens d).map (Token.map some)) = .yes := by
  have hmatched := isColumnName_of_mem (mem_columnNames hcolumn c.matched_mem_names)
  have hcompared := isColumnName_of_mem (mem_columnNames hcolumn c.compared_mem_names)
  rcases Column.prefixComparison_cases (d := d) hfulltext hstar with
    ⟨-, heq⟩ | ⟨hd, heq⟩ | ⟨rfl, heq⟩
  · rw [heq, truth_like _ _ _ hcompared, Truth.ofTest_eq_yes_iff]
    exact ⟨s, hs, (Pattern.likes_prefixPattern_iff hstar).2 hstarts⟩
  · rw [heq, truth_search _ _ _ hmatched, Truth.ofTest_eq_yes_iff]
    obtain ⟨lexemes, hvector, place, hmem⟩ := hindex hd
    exact ⟨lexemes, hvector, answersAny_open hmem (startsWith_lowercase hsigma hstarts)⟩
  · rw [heq, truth_likeAnyCase _ _ _ hmatched, Truth.ofTest_eq_yes_iff]
    rw [Column.compared, Dialect.companion?_of_h2 hcolumn] at hs
    exact ⟨s, hs, Pattern.likes_lowercase_containing hne hstar hsigma hstarts⟩

/-- A column without text search meets the comparison with a prefix only where its text is the
wildcard. -/
theorem truth_prefixComparison_of_plain (hcolumn : d.column? field = some c)
    (hplain : c.fulltext = false) :
    r.truth engine other (((c.prefixComparison d v).tokens d).map (Token.map some)) = .yes ↔
      r.row c.compared = some (v ++ "*") := by
  have hcompared := isColumnName_of_mem (mem_columnNames hcolumn c.compared_mem_names)
  rw [Column.prefixComparison_of_plain hplain, truth_equals _ _ _ hcompared,
    Row.among_eq_yes_iff]
  simp

end Record

/-! ## Selectors -/

namespace Selector

variable {aliases : Aliases} {property : String} {field : Field} {d : Dialect} {c : Column}
  {ns : String}

theorem outcome_startsWith (hcolumn : d.column? field = some c) (hblank : isBlank v = false)
    (hstar : '*' ∉ v.toList) :
    Predicate.outcome d ⟨field, .eq, .wildcard (v ++ "*") false⟩ =
      .rendered (.single false (c.prefixComparison d v)) :=
  Predicate.outcome_of_text hcolumn (Pattern.isBlank_open hblank hstar) (c.fragment_open d v)

/-- A comparison with a prefix has an expression and a condition, which is one comparison. In a
column with text search it is open at its end, and it is met wherever the text of the column starts
with the prefix, provided the prefix does not end in a capital sigma and the text is indexed. In a
column without text search it is an equality with the wildcard, met by no other text. -/
theorem truth?_of_startsWith (hfield : aliases property = some field)
    (hcolumn : d.column? field = some c) (hblank : isBlank v = false) (hstar : '*' ∉ v.toList)
    (hns : isIdentifier ns.toList = true) :
    ∃ (e : Expression) (cond : Condition) (comparison : Comparison),
      toExpression aliases (.comparison property .startsWith v) = .ok e ∧
      e.compile d ns = .ok cond ∧
      cond.reading = some (.atom ((comparison.tokens d).map (Token.map some))) ∧
      (c.fulltext = true → comparison.IsOpen ∧ (¬ EndsInSigma v.toList →
        ∀ (r : Record) engine other s, r.row c.compared = some s → (d = .postgres → r.Indexes c s) →
          v.toList <+: s.toList → cond.truth? (r.truth engine other) = some .yes)) ∧
      (c.fulltext = false → comparison = .equals c.compared (v ++ "*") ∧
        ∀ (r : Record) engine other, cond.truth? (r.truth engine other) = some .yes ↔
          r.row c.compared = some (v ++ "*")) := by
  have hexpression : toExpression aliases (.comparison property .startsWith v) =
      .ok (Expression.compare field .eq (.wildcard (v ++ "*") false)) := by
    rw [toExpression, hfield, ← Comparator.openValue_of_not_mem hstar]
    rfl
  have hne : v.toList ≠ [] := by
    intro hnil
    rw [isBlank, hnil] at hblank
    cases hblank
  obtain ⟨cond, hcond, hreading, htruth⟩ :=
    Expression.compile_of_single hns (outcome_startsWith hcolumn hblank hstar)
  refine ⟨_, cond, c.prefixComparison d v, hexpression, hcond, hreading, fun hfulltext => ?_,
    fun hplain => ?_⟩
  · refine ⟨Column.isOpen_prefixComparison hfulltext hstar, fun hsigma r engine other s hs hindex
      hstarts => ?_⟩
    rw [htruth, Record.truth_prefixComparison hcolumn hfulltext hne hstar hsigma hs hindex hstarts]
  · refine ⟨Column.prefixComparison_of_plain hplain, fun r engine other => ?_⟩
    rw [htruth, Option.some.injEq, Record.truth_prefixComparison_of_plain hcolumn hplain]

/-- A text is found by the start of its name, in the column that holds it and in the vector. -/
theorem truth?_of_startsWith_commons :
    ∃ (e : Expression) (cond : Condition),
      toExpression .standard (.comparison "name" .startsWith "Commons") = .ok e ∧
      e.compile .postgres "filterParams" = .ok cond ∧
      ∀ engine other, cond.truth? (Record.truth ⟨fun column =>
          if column = "search_component_name" then some "Commons-io" else none,
        fun column =>
          if column = "tsvector_search_component_name" then some [("commons-io", 1)] else none⟩
        engine other) = some .yes := by
  obtain ⟨e, cond, comparison, he, hcond, -, hfulltext, -⟩ := truth?_of_startsWith (v := "Commons")
    (show Aliases.standard "name" = some .name by decide)
    (show Dialect.postgres.column? .name = some (Dialect.vectorColumn .name) from rfl)
    (by decide +kernel) (by decide) (show isIdentifier "filterParams".toList = true by decide)
  have hmet := (hfulltext rfl).2 (not_endsInSigma_of_not_mem (by decide))
  refine ⟨e, cond, he, hcond, fun engine other => ?_⟩
  refine hmet _ engine other "Commons-io" rfl (fun _ => ⟨[("commons-io", 1)], rfl, 1, ?_⟩)
    (by decide)
  decide +kernel

/-- A format that starts with the prefix is not found in either dialect, as it is compared with the
prefix and the star. -/
theorem not_met_of_startsWith :
    "mav".toList <+: "maven2".toList ∧
    ∀ d : Dialect, ∃ (e : Expression) (cond : Condition),
      toExpression .standard (.comparison "format" .startsWith "mav") = .ok e ∧
      e.compile d "filterParams" = .ok cond ∧
      ∀ (r : Record) engine other, r.row "format" = some "maven2" →
        cond.truth? (r.truth engine other) = some .no := by
  refine ⟨by decide, fun d => ?_⟩
  have hcolumn : d.column? .format = some (.plain "format") := by cases d <;> rfl
  obtain ⟨cond, hcond, -, htruth⟩ := Expression.compile_of_single
    (show isIdentifier "filterParams".toList = true by decide)
    (outcome_startsWith (v := "mav") hcolumn (by decide +kernel) (by decide))
  refine ⟨_, cond, rfl, hcond, fun r engine other hrow => ?_⟩
  have hname : IsColumnName "format" :=
    isColumnName_of_mem (mem_columnNames hcolumn (Column.matched_mem_names _))
  rw [htruth, Column.prefixComparison_of_plain rfl]
  refine congrArg some ((Record.truth_equals r engine other hname "mav*").trans ?_)
  rw [Row.among, hrow]
  decide

end Selector

end SearchFilter
