import SearchFilter.Proofs.Compile.Fragment

/-!
# Comparisons with single texts

How a column is compared with one text, which may be the only one of a predicate or one of several.
A column without text search compares its whole value in either case, and otherwise the text is
searched for. Only where it is alone does a column of single values with text search compare its
whole value with an exact text, or the plain text beside a search vector with a wildcard of two dots
or more.

Main statements: `Column.comparison_eq_iff` says for which texts it counts whether they are alone;
`Column.fragment_eq_text`, `Column.fragment_oneOf_whole` and `Column.fragment_oneOf_search`,
fragments are made of these comparisons.
-/

namespace SearchFilter

namespace Column

/-- The comparison of a column with a text that is the only one, or one of several. -/
def comparison (d : Dialect) (c : Column) (alone : Bool) (p : Pattern) : Comparison :=
  if c.fulltext = false ∨ alone = true ∧ c.tokenized = false ∧ p.kind = .exact then
    .equals c.compared p.value
  else
    match if alone then c.dotted? d (.text p) [] else none with
    | some (column, pattern) => .like column pattern
    | none => (c.searchTest d false (.text p)).comparison

/-- Whether a text is compared in another way when it is the only one: the column has text search
and single values, and the text is exact or, with a plain column beside a search vector, a wildcard
with two dots or more. -/
structure SinglesOut (d : Dialect) (c : Column) (p : Pattern) : Prop where
  fulltext : c.fulltext = true
  untokenized : c.tokenized = false
  kind : p.kind = .exact ∨
    d = .postgres ∧ c.companion? ≠ none ∧ p.kind = .wildcard ∧ 2 ≤ p.value.toList.count '.'

variable {d : Dialect} {c : Column} {p : Pattern}

theorem dotted?_ne_none_iff :
    c.dotted? d (.text p) [] ≠ none ↔
      c.tokenized = false ∧ d = .postgres ∧ c.companion? ≠ none ∧ p.kind = .wildcard ∧
        2 ≤ p.value.toList.count '.' := by
  unfold dotted?
  cases d with
  | h2 => simp
  | postgres =>
    cases c.companion? with
    | none => simp
    | some column =>
      cases p with
      | exact | lenient => simp [Pattern.kind]
      | wildcard v tokenize =>
        simp only [ne_eq, ite_eq_right_iff, reduceCtorEq, imp_false, not_not, Bool.and_eq_true,
          Bool.not_eq_true', decide_eq_true_eq, Pattern.kind, Pattern.value, not_false_eq_true,
          true_and]

theorem dotted?_of_several {first second : Scalar} {rest : List Scalar} :
    c.dotted? d first (second :: rest) = none := by
  unfold dotted?
  split
  · next heq => cases heq
  · rfl

theorem dotted?_of_null {rest : List Scalar} : c.dotted? d .null rest = none := by
  unfold dotted?
  split
  · next heq => cases heq
  · rfl

theorem comparison_of_plain (h : c.fulltext = false) (alone : Bool) :
    c.comparison d alone p = .equals c.compared p.value :=
  if_pos (.inl h)

/-- Next to others, a text is searched for in a column with text search. -/
theorem comparison_of_fulltext (h : c.fulltext = true) :
    c.comparison d false p = (c.searchTest d false (.text p)).comparison :=
  if_neg (by simp [h])

theorem searchTest_ne_equals (column value : String) :
    (c.searchTest d false (.text p)).comparison ≠ .equals column value := by
  cases d <;> exact nofun

/-- A text is never compared as the absent value is. -/
theorem comparison_ne_absent (alone : Bool) (column : String) :
    c.comparison d alone p ≠ .absent column := by
  unfold comparison
  split
  · exact nofun
  · split
    · exact nofun
    · cases d <;> exact nofun

/-- Whether other texts stand next to it counts for just these. -/
theorem comparison_eq_iff :
    c.comparison d false p = c.comparison d true p ↔ ¬ c.SinglesOut d p := by
  cases hfulltext : c.fulltext with
  | false =>
    rw [comparison_of_plain hfulltext, comparison_of_plain hfulltext]
    exact iff_of_true rfl fun h => absurd (hfulltext.symm.trans h.fulltext) (by decide)
  | true =>
    rw [comparison_of_fulltext hfulltext, comparison]
    by_cases hexact : c.tokenized = false ∧ p.kind = .exact
    · rw [if_pos (.inr ⟨rfl, hexact⟩)]
      exact iff_of_false (searchTest_ne_equals _ _)
        fun h => h ⟨hfulltext, hexact.1, .inl hexact.2⟩
    · rw [if_neg (by simpa [hfulltext] using hexact), if_pos rfl]
      cases hdotted : c.dotted? d (.text p) [] with
      | some target =>
        obtain ⟨huntokenized, hkind⟩ :=
          dotted?_ne_none_iff.1 (hdotted ▸ Option.some_ne_none target)
        exact iff_of_false (searchTest_ne_like _ _ target.1 target.2)
          fun h => h ⟨hfulltext, huntokenized, .inr hkind⟩
      | none =>
        refine iff_of_true rfl fun h => ?_
        rcases h.kind with hkind | hkind
        · exact hexact ⟨h.untokenized, hkind⟩
        · exact dotted?_ne_none_iff.2 ⟨h.untokenized, hkind⟩ hdotted

/-! ## Fragments -/

variable {first : Pattern} {rest : List Pattern}

theorem comparesWhole_text_iff {others : List Scalar} :
    c.comparesWhole (.text p) others = true ↔
      c.fulltext = false ∨ c.tokenized = false ∧ others = [] ∧ p.kind = .exact := by
  have hkind : (Scalar.text p).kind = p.kind := rfl
  rw [comparesWhole, hkind]
  simp [and_assoc]

/-- The whole value is compared where that is possible, with the only text or with all of them. -/
theorem comparison_of_comparesWhole
    (h : c.comparesWhole (.text first) (rest.map .text) = true) :
    ∀ p ∈ first :: rest, c.comparison d rest.isEmpty p = .equals c.compared p.value := by
  intro p hp
  rcases comparesWhole_text_iff.1 h with hplain | ⟨huntokenized, hrest, hkind⟩
  · exact comparison_of_plain hplain _
  · rw [List.map_eq_nil_iff] at hrest
    subst hrest
    rw [List.mem_singleton.1 hp]
    exact if_pos (.inr ⟨rfl, huntokenized, hkind⟩)

theorem comparison_of_comparesWhole_alone (h : c.comparesWhole (.text p) [] = true) :
    c.comparison d true p = .equals c.compared p.value :=
  comparison_of_comparesWhole (show c.comparesWhole (.text p) ([].map .text) = true from h) p
    List.mem_cons_self

theorem searchTest_eq (d : Dialect) (c : Column) (negated : Bool) (p : Pattern) :
    c.searchTest d negated (.text p) = ⟨negated, (c.searchTest d false (.text p)).comparison⟩ := by
  cases d <;> rfl

/-- A text that is the only one is searched for where the whole value is not compared. -/
theorem search_text (negated : Bool) (h : ¬ c.comparesWhole (.text p) [] = true) :
    c.search d negated (.text p) [] = .ok (.single negated (c.comparison d true p)) := by
  rw [comparesWhole_text_iff, not_or] at h
  obtain ⟨hfulltext, hexact⟩ := h
  rw [Column.search, if_pos (by simpa using hfulltext), comparison,
    if_neg (not_or.2 ⟨hfulltext, fun hother => hexact ⟨hother.2.1, rfl, hother.2.2⟩⟩), if_pos rfl]
  cases c.dotted? d (.text p) [] with
  | some target => rfl
  | none =>
    dsimp only
    rw [searchTest_eq]
    rfl

/-- Of several texts, each is searched for in a column with text search. -/
theorem search_texts (h : c.fulltext = true) (second : Pattern) :
    c.search d false (.text first) ((second :: rest).map .text) =
      .ok ⟨⟨false, c.comparison d false first⟩,
        ((second :: rest).map (c.comparison d false)).map (⟨false, ·⟩)⟩ := by
  have htests : ((second :: rest).map Scalar.text).map (c.searchTest d false) =
      ((second :: rest).map (c.comparison d false)).map (⟨false, ·⟩) := by
    rw [List.map_map, List.map_map]
    refine List.map_congr_left fun p _ => ?_
    rw [Function.comp_apply, Function.comp_apply, comparison_of_fulltext h, ← searchTest_eq]
  rw [Column.search, if_pos h, List.map_cons, dotted?_of_several, ← List.map_cons, htests,
    comparison_of_fulltext h, ← searchTest_eq]

/-- A field is compared with the one text there is. -/
theorem fragment_eq_text (d : Dialect) (c : Column) (p : Pattern) :
    c.fragment d .eq (.text p) [] = .ok (.single false (c.comparison d true p)) := by
  unfold fragment
  dsimp only
  split
  · next h =>
    rw [comparison_of_comparesWhole_alone h]
    rfl
  · next h => exact search_text false h

/-- The column that a text is compared with is one of the field. -/
theorem column_comparison_mem_names (d : Dialect) (c : Column) (p : Pattern) :
    (c.comparison d true p).column ∈ c.names :=
  (renders_of_fragment (c.fragment_eq_text d p)).columns_subset List.mem_cons_self

/-- What a field is different from is the one text that it would be compared with. -/
theorem fragment_notEq_text (d : Dialect) (c : Column) (p : Pattern) :
    c.fragment d .notEq (.text p) [] = .ok (.single true (c.comparison d true p)) := by
  unfold fragment
  dsimp only
  split
  · next h =>
    rw [comparison_of_comparesWhole_alone h]
    rfl
  · next h => exact search_text true h

/-- In a column of either kind, a field is compared with the absent value in one way. -/
theorem fragment_eq_null (d : Dialect) (c : Column) :
    c.fragment d .eq .null [] = .ok (.single false (.absent c.compared)) := by
  unfold fragment
  dsimp only
  split
  · rfl
  · next h =>
    have hfulltext : c.fulltext = true := by
      rw [comparesWhole, Bool.not_eq_true, Bool.or_eq_false_iff, Bool.not_eq_false'] at h
      exact h.1
    rw [Column.search, if_pos hfulltext, dotted?_of_null]
    rfl

theorem texts?_map_text (ps : List Pattern) :
    texts? (ps.map .text) = some (ps.map Pattern.value) := by
  induction ps with
  | nil => rfl
  | cons p ps ih => rw [List.map_cons, texts?, ih, Option.map_some, List.map_cons]

/-- Whether the whole value is in a collection of texts is one comparison. -/
theorem fragment_oneOf_whole (h : c.comparesWhole (.text first) (rest.map .text) = true) :
    c.fragment d .oneOf (.text first) (rest.map .text) =
      .ok (.single false (.oneOf c.compared first.value (rest.map Pattern.value))) := by
  unfold fragment membership
  dsimp only
  rw [if_pos h, texts?_map_text]

/-- Otherwise the field is compared with each text of the collection. -/
theorem fragment_oneOf_search (h : ¬ c.comparesWhole (.text first) (rest.map .text) = true) :
    c.fragment d .oneOf (.text first) (rest.map .text) =
      .ok ⟨⟨false, c.comparison d rest.isEmpty first⟩,
        (rest.map (c.comparison d rest.isEmpty)).map (⟨false, ·⟩)⟩ := by
  unfold fragment
  dsimp only
  rw [if_neg h]
  cases rest with
  | nil => exact search_text false h
  | cons second rest =>
    rw [comparesWhole_text_iff, not_or] at h
    exact search_texts (by simpa using h.1) second

end Column

end SearchFilter
