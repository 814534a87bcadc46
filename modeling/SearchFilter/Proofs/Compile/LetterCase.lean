import SearchFilter.Proofs.Collection
import SearchFilter.Proofs.Compile.Secrecy
import SearchFilter.Proofs.Pattern.LetterCase

/-!
# Predicates in lower case

A search in a search vector does not go by letter case: with its terms in lower case a predicate
comes down to the same fragment. The pattern that stands in for a search vector is compared with
the plain column and goes by it: there the condition has the same text, and the values that are
bound to its names are in lower case.

Main statement: `Expression.compile_lowered`.
-/

namespace SearchFilter

/-! ## Traits -/

theorem steady_isSeparator : Steady isSeparator := by
  have hdot : Steady (· == '.') := IsEarly.steady ⟨by decide, by decide⟩
  have hdash : Steady (· == '-') := IsEarly.steady ⟨by decide, by decide⟩
  have hslash : Steady (· == '/') := IsEarly.steady ⟨by decide, by decide⟩
  have hbackslash : Steady (· == '\\') := IsLikeSign.steady (.inl rfl)
  have hspace : Steady (· == ' ') := IsEarly.steady ⟨by decide, by decide⟩
  exact (((hdot.or hdash).or hslash).or hbackslash).or hspace

theorem settled_of_isSeparator {c : Char} (h : isSeparator c = true) : Settled c := by
  simp only [isSeparator, Bool.or_eq_true, beq_iff_eq] at h
  rcases h with (((rfl | rfl) | rfl) | rfl) | rfl
  · exact IsEarly.settled ⟨by decide, by decide⟩
  · exact IsEarly.settled ⟨by decide, by decide⟩
  · exact IsEarly.settled ⟨by decide, by decide⟩
  · exact (IsLikeSign.inert (.inl rfl)).settled
  · exact IsEarly.settled ⟨by decide, by decide⟩

/-- In lower case a text has as many tokens, whatever is left out of it. -/
theorem length_nonemptyPieces_filter_lowerAfter {q : Char → Bool} (hq : Steady q)
    (cs : List Char) :
    (nonemptyPieces isSeparator ((lowerAfter [] cs).filter q)).length =
      (nonemptyPieces isSeparator (cs.filter q)).length :=
  (expands_filter_lowerAfter steady_isSeparator hq (fun _ => settled_of_isSeparator) [] cs)
    |>.length_nonemptyPieces_eq

theorem length_tokens_lowercase (s : String) :
    (tokens (lowercase s)).length = (nonemptyPieces isSeparator s.toList).length := by
  have hsteady : Steady fun _ => true := ⟨rfl, fun _ _ _ => rfl⟩
  have hall := length_nonemptyPieces_filter_lowerAfter hsteady s.toList
  rw [List.filter_true, List.filter_true] at hall
  rw [tokens, List.length_map, toList_lowercase, hall]

namespace Pattern

theorem length_tokens_searched_lowered (p : Pattern) :
    (tokens p.lowered.searched).length = (tokens p.searched).length := by
  cases p with
  | exact v | lenient v => rw [lowered, searched, searched, lowercase_lowercase]
  | wildcard v tokenize =>
    rw [lowered, searched, searched, length_tokens_lowercase, length_tokens_lowercase,
      toList_withoutStars, toList_withoutStars, toList_lowercase]
    exact length_nonemptyPieces_filter_lowerAfter isEarly_star.steady.not v.toList

theorem count_searched_lowered (p : Pattern) :
    p.lowered.searched.toList.count '.' = p.searched.toList.count '.' := by
  have hdot : IsEarly '.' := ⟨by decide, by decide⟩
  cases p with
  | exact v | lenient v => rw [lowered, searched, searched, lowercase_lowercase]
  | wildcard v tokenize =>
    rw [lowered, searched, searched, count_lowercase hdot, count_lowercase hdot,
      toList_withoutStars, toList_withoutStars, starless, starless,
      List.count_filter (by decide), List.count_filter (by decide), count_lowercase hdot]

/-- A pattern keeps all its traits in lower case. -/
theorem traits_lowered (p : Pattern) : p.lowered.traits = p.traits := by
  have htokenize : p.lowered.tokenize = p.tokenize := by cases p <;> rfl
  rw [traits, traits, kind_lowered, htokenize, isBlank_lowered, length_tokens_searched_lowered,
    count_searched_lowered]

end Pattern

/-! ## Terms -/

namespace Scalar

/-- The term with its value in lower case, if it has one. -/
def lowered : Scalar → Scalar
  | null => null
  | text p => text p.lowered

theorem kind_lowered (s : Scalar) : s.lowered.kind = s.kind := by
  cases s with
  | null => rfl
  | text p => exact p.kind_lowered

theorem traits_lowered (s : Scalar) : s.lowered.traits = s.traits := by
  cases s with
  | null => rfl
  | text p => exact congrArg some p.traits_lowered

theorem isBlank_lowered (s : Scalar) : s.lowered.isBlank = s.isBlank := by
  rw [isBlank_eq, isBlank_eq, traits_lowered]

theorem map_traits_lowered (l : List Scalar) :
    (l.map lowered).map traits = l.map traits := by
  rw [List.map_map]
  exact List.map_congr_left fun s _ => s.traits_lowered

/-- No star of the term changes which of its capital sigmas end a word. -/
def KeepsSigmas : Scalar → Prop
  | null => True
  | text p => p.KeepsSigmas

instance : DecidablePred KeepsSigmas := fun s => by
  unfold KeepsSigmas
  split <;> infer_instance

end Scalar

/-- The collection of the members in lower case, of which some may have become the same. -/
def TermCollection.lowered (c : TermCollection) : TermCollection :=
  ofScalars (c.members.map Scalar.lowered) (by
    simp only [List.mem_map]
    rintro _ ⟨a, ha, rfl⟩ _ ⟨b, hb, rfl⟩
    rw [a.kind_lowered, b.kind_lowered]
    exact c.same_kind a ha b hb)

namespace Term

/-- The term with its values in lower case. -/
def lowered : Term → Term
  | scalar s => scalar s.lowered
  | collection c => collection c.lowered

theorem members_lowered {t : Term} (h : (t.members.map Scalar.lowered).Nodup) :
    t.lowered.members = t.members.map Scalar.lowered := by
  cases t with
  | scalar s => rfl
  | collection c => exact firstOccurrences_of_nodup h

end Term

namespace Predicate

/-- The predicate with its values in lower case. -/
def lowered (p : Predicate) : Predicate := { p with term := p.term.lowered }

variable {p : Predicate}

theorem traits_lowered (h : (p.term.members.map Scalar.lowered).Nodup) :
    p.lowered.traits = p.traits := by
  have hterms : p.lowered.term.members.map Scalar.traits = p.term.members.map Scalar.traits := by
    rw [lowered, Term.members_lowered h, Scalar.map_traits_lowered]
  exact congrArg (PredicateTraits.mk p.field p.operand) hterms

theorem effective_lowered (h : (p.term.members.map Scalar.lowered).Nodup) :
    p.lowered.effective = p.effective.map Scalar.lowered := by
  rw [effective, effective, lowered, Term.members_lowered h, List.filter_map]
  congr 1
  exact List.filter_congr fun s _ => congrArg (!·) s.isBlank_lowered

end Predicate

/-! ## Fragments -/

namespace Fragment

/-- Every test asks a search vector. -/
def ByQuery (f : Fragment) : Prop :=
  ∀ t ∈ f.tests, ∃ column query, t.comparison = .search column query

/-- The plain column stands in for a search vector. -/
def ByPattern (f : Fragment) : Prop :=
  ∃ negated column pattern, f = single negated (.like column pattern)

end Fragment

/-- A comparison that only a search comes down to. -/
def Comparison.IsSearch : Comparison → Prop
  | search _ _ | like _ _ => True
  | absent _ | equals _ _ | oneOf _ _ _ | regex _ _ | likeAnyCase _ _ => False

theorem Fragment.ByQuery.isSearch {f : Fragment} (h : f.ByQuery) : f.first.comparison.IsSearch := by
  obtain ⟨column, query, hfirst⟩ := h f.first List.mem_cons_self
  rw [hfirst]
  trivial

namespace Column

variable {d : Dialect} {c : Column} {op : Operand} {negated : Bool} {first : Scalar}
  {rest : List Scalar} {f : Fragment}

theorem fragment_eq_search (hop : op ≠ .regex)
    (hwhole : op ≠ .any → c.comparesWhole first rest = false)
    (hterms : op = .any ∨ op = .oneOf ∨ rest = []) :
    c.fragment d op first rest = c.search d (op == .notEq) first rest := by
  cases op with
  | any => rfl
  | regex => exact absurd rfl hop
  | oneOf =>
    rw [fragment, hwhole (by decide)]
    rfl
  | eq | notEq =>
    obtain rfl : rest = [] := by simpa using hterms
    rw [fragment, hwhole (by decide)]
    rfl

theorem terms_of_fragment (h : c.fragment d op first rest = .ok f) :
    op = .any ∨ op = .oneOf ∨ rest = [] := by
  cases rest with
  | nil => exact .inr (.inr rfl)
  | cons second rest => cases op <;> simp [fragment] at h ⊢

/-- What only a search comes down to is the search for the terms, and so it is in lower case. -/
theorem fragment_lowered_eq_search (h : c.fragment d op first rest = .ok f)
    (hf : f.first.comparison.IsSearch) :
    c.search d (op == .notEq) first rest = .ok f ∧
      c.fragment d op first.lowered (rest.map Scalar.lowered) =
        c.search d (op == .notEq) first.lowered (rest.map Scalar.lowered) := by
  have hsearch : op ≠ .regex ∧ (op ≠ .any → c.comparesWhole first rest = false) := by
    cases renders_of_fragment h with
    | whole => cases first <;> exact hf.elim
    | membership | regex => exact hf.elim
    | dotted hop hwhole | search hop hwhole => exact ⟨hop, hwhole⟩
  have hterms := terms_of_fragment h
  have hwhole : c.comparesWhole first.lowered (rest.map Scalar.lowered) =
      c.comparesWhole first rest :=
    comparesWhole_congr first.traits_lowered (Scalar.map_traits_lowered rest)
  refine ⟨(fragment_eq_search hsearch.1 hsearch.2 hterms).symm.trans h,
    fragment_eq_search hsearch.1 (fun hany => hwhole.trans (hsearch.2 hany)) ?_⟩
  rw [List.map_eq_nil_iff]
  exact hterms

/-- The two ways to search in a column. -/
theorem search_cases (h : c.search d negated first rest = .ok f) : c.fulltext = true ∧
    ((∃ column pattern, c.dotted? d first rest = some (column, pattern) ∧
        f = .single negated (.like column pattern)) ∨
      c.dotted? d first rest = none ∧
        f = ⟨c.searchTest d negated first, rest.map (c.searchTest d negated)⟩) := by
  unfold search at h
  split at h
  · next hfulltext =>
    refine ⟨hfulltext, ?_⟩
    split at h
    · next column pattern hd => exact .inl ⟨column, pattern, hd, (Except.ok.inj h).symm⟩
    · next hd => exact .inr ⟨hd, (Except.ok.inj h).symm⟩
  · cases h

theorem dotted?_lowered :
    c.dotted? d first.lowered (rest.map Scalar.lowered) =
      (c.dotted? d first rest).map (Prod.map id lowercase) := by
  have hdot : IsEarly '.' := ⟨by decide, by decide⟩
  cases d with
  | h2 => rfl
  | postgres =>
    unfold dotted?
    cases c.companion? with
    | none => rfl
    | some column =>
      cases rest with
      | cons second rest =>
        cases first with
        | null => rfl
        | text p => cases p <;> rfl
      | nil =>
        cases first with
        | null => rfl
        | text p =>
          cases p with
          | exact v | lenient v => rfl
          | wildcard v tokenize =>
            simp only [Scalar.lowered, Pattern.lowered, List.map_nil, count_lowercase hdot]
            split
            · rw [← lowercase_prefixPattern]
              rfl
            · rfl

theorem searchTest_lowered (negated : Bool) {s : Scalar} (h : s.KeepsSigmas) :
    c.searchTest .postgres negated s.lowered = c.searchTest .postgres negated s := by
  cases s with
  | null => rfl
  | text p =>
    exact congrArg (fun q => Test.mk negated (.search c.matched q)) (Pattern.query_lowered h)

/-- A search vector is asked for the same in lower case. -/
theorem search_lowered_of_byQuery (h : c.search .postgres negated first rest = .ok f)
    (hf : f.ByQuery) (hsigmas : ∀ s ∈ first :: rest, s.KeepsSigmas) :
    c.search .postgres negated first.lowered (rest.map Scalar.lowered) = .ok f := by
  rw [List.forall_mem_cons] at hsigmas
  obtain ⟨hfulltext, ⟨column, pattern, -, rfl⟩ | ⟨hd, rfl⟩⟩ := search_cases h
  · obtain ⟨_, _, hlike⟩ := hf _ List.mem_cons_self
    cases hlike
  · have hrest : (rest.map Scalar.lowered).map (c.searchTest .postgres negated) =
        rest.map (c.searchTest .postgres negated) := by
      rw [List.map_map]
      exact List.map_congr_left fun s hs => searchTest_lowered negated (hsigmas.2 s hs)
    rw [search, if_pos hfulltext, dotted?_lowered, hd, searchTest_lowered negated hsigmas.1, hrest]
    rfl

/-- The pattern that stands in for a search vector is put into lower case. -/
theorem search_lowered_of_byPattern {negated' : Bool} {column pattern : String}
    (h : c.search d negated first rest = .ok (.single negated' (.like column pattern))) :
    c.search d negated first.lowered (rest.map Scalar.lowered) =
      .ok (.single negated' (.like column (lowercase pattern))) := by
  obtain ⟨hfulltext, ⟨column', pattern', hd, heq⟩ | ⟨-, heq⟩⟩ := search_cases h
  · cases heq
    rw [search, if_pos hfulltext, dotted?_lowered, hd]
    rfl
  · exact absurd (congrArg (fun f => f.first.comparison) heq).symm (searchTest_ne_like _ _ _ _)

end Column

namespace Predicate

variable {d : Dialect} {p : Predicate} {f : Fragment}

/-- A predicate that comes down to a search comes down to the search for the same terms in lower
case. -/
theorem exists_search_of_outcome (hdistinct : (p.term.members.map Scalar.lowered).Nodup)
    (h : p.outcome d = .rendered f) (hf : f.first.comparison.IsSearch) :
    ∃ (c : Column) (negated : Bool) (first : Scalar) (rest : List Scalar),
      p.effective = first :: rest ∧ c.search d negated first rest = .ok f ∧
      ∀ f', c.search d negated first.lowered (rest.map Scalar.lowered) = .ok f' →
        p.lowered.outcome d = .rendered f' := by
  obtain ⟨c, first, rest, hc, he, hfragment⟩ := exists_fragment_of_outcome h
  obtain ⟨hsearch, hlowered⟩ := Column.fragment_lowered_eq_search hfragment hf
  refine ⟨c, _, first, rest, he, hsearch, fun f' hf' => ?_⟩
  have he' : p.lowered.effective = first.lowered :: rest.map Scalar.lowered := by
    rw [effective_lowered hdistinct, he, List.map_cons]
  exact outcome_eq_rendered hc he' (hlowered.trans hf')

/-- Asked of a search vector, a predicate comes down to the same fragment in lower case. -/
theorem outcome_lowered_of_byQuery (hdistinct : (p.term.members.map Scalar.lowered).Nodup)
    (h : p.outcome .postgres = .rendered f) (hf : f.ByQuery)
    (hsigmas : ∀ s ∈ p.term.members, s.KeepsSigmas) :
    p.lowered.outcome .postgres = .rendered f := by
  obtain ⟨c, negated, first, rest, he, hsearch, hlowered⟩ :=
    exists_search_of_outcome hdistinct h hf.isSearch
  refine hlowered f (Column.search_lowered_of_byQuery hsearch hf fun s hs => hsigmas s ?_)
  exact List.mem_of_mem_filter (he ▸ hs)

/-- Compared with the plain column, a predicate comes down to the pattern in lower case. -/
theorem outcome_lowered_of_byPattern {negated : Bool} {column pattern : String}
    (hdistinct : (p.term.members.map Scalar.lowered).Nodup)
    (h : p.outcome d = .rendered (.single negated (.like column pattern))) :
    p.lowered.outcome d = .rendered (.single negated (.like column (lowercase pattern))) := by
  obtain ⟨c, negated', first, rest, -, hsearch, hlowered⟩ :=
    exists_search_of_outcome hdistinct h trivial
  exact hlowered _ (Column.search_lowered_of_byPattern hsearch)

/-- In lower case a predicate comes down to a fragment that differs in its values at most. -/
theorem exists_outcome_lowered (hdistinct : (p.term.members.map Scalar.lowered).Nodup)
    (h : p.outcome d = .rendered f) :
    ∃ f', p.lowered.outcome d = .rendered f' ∧ f'.outline = f.outline := by
  have houtline : (p.lowered.outcome d).outline = (p.outcome d).outline :=
    outline_outcome_factorsThrough d (traits_lowered hdistinct)
  rw [h] at houtline
  cases hlowered : p.lowered.outcome d with
  | dropped | rejected i =>
    rw [hlowered] at houtline
    cases houtline
  | rendered f' =>
    rw [hlowered] at houtline
    exact ⟨f', rfl, Outcome.rendered.inj houtline⟩

end Predicate

/-! ## Conditions -/

/-- A first value and another one in its place are bound to the same name. -/
theorem Bindings.get?_start_bind (column value : String) (g : String → String) (name : String) :
    (start.bind column (g value)).parameters.get? name =
      ((start.bind column value).parameters.get? name).map g := by
  by_cases hname : name = start.freshName column
  · rw [hname, get?_bind_self, get?_bind_self, Option.map_some]
  · rw [get?_bind_of_ne _ _ hname, get?_bind_of_ne _ _ hname]
    rfl

namespace Expression

variable {p : Predicate} {f : Fragment}

/-- In lower case a predicate has a condition with the same text and the same names. On the path of
a search vector the same values are bound to them, unless a star decides on the form of a sigma; a
pattern that stands in for a search vector is put into lower case. -/
theorem compile_lowered (ns : String) (hdistinct : (p.term.members.map Scalar.lowered).Nodup)
    (h : p.outcome .postgres = .rendered f) :
    ∃ c c' : Condition, compile .postgres ns (.atom p) = .ok c ∧
      compile .postgres ns (.atom p.lowered) = .ok c' ∧
      c'.sqlText = c.sqlText ∧ c'.parameters.names = c.parameters.names ∧
      (f.ByQuery → (∀ s ∈ p.term.members, s.KeepsSigmas) → c' = c) ∧
      (f.ByPattern → ∀ name,
        c'.parameters.get? name = (c.parameters.get? name).map lowercase) := by
  obtain ⟨f', hf', houtline⟩ := Predicate.exists_outcome_lowered hdistinct h
  have hpieces : (f'.pieces .postgres).map Piece.outline =
      (f.pieces .postgres).map Piece.outline := by
    rw [← f'.map_outline_pieces, houtline, f.map_outline_pieces]
  refine ⟨_, _, compile_of_rendered ns h, compile_of_rendered ns hf',
    Condition.sqlText_eq_of_outline ns hpieces, Condition.names_eq_of_outline ns hpieces, ?_, ?_⟩
  · intro hquery hsigmas
    have hsame := Predicate.outcome_lowered_of_byQuery hdistinct h hquery hsigmas
    rw [Outcome.rendered.inj (hf'.symm.trans hsame)]
  · rintro ⟨negated, column, pattern, rfl⟩ name
    have hlower := Predicate.outcome_lowered_of_byPattern hdistinct h
    have hbound : ∀ value, (Condition.ofPieces ns
        ((Fragment.single negated (.like column value)).pieces .postgres)).parameters =
          (Bindings.start.bind column value).parameters := by
      intro value
      cases negated <;> rfl
    rw [Outcome.rendered.inj (hf'.symm.trans hlower), hbound, hbound, Bindings.get?_start_bind]

theorem compile_lowered_wildcards :
    (∃ c c' : Condition,
      compile .postgres "p" (compare .name .any (.collection (.ofScalars
        [.text (.wildcard "Commons-IO*" true), .text (.wildcard "ΟΔΟΣ*" false)] (by decide)))) =
          .ok c ∧
      compile .postgres "p" (compare .name .any (.collection (.ofScalars
        [.text (.wildcard "commons-io*" true), .text (.wildcard "οδος*" false)] (by decide)))) =
          .ok c' ∧
      c' = c) ∧
    ∃ c c' : Condition,
      compile .postgres "p" (compare .version .notEq (.wildcard "1.2.RC*" false)) = .ok c ∧
      compile .postgres "p" (compare .version .notEq (.wildcard "1.2.rc*" false)) = .ok c' ∧
      c'.parameters.get? "version0" = (c.parameters.get? "version0").map lowercase := by
  constructor
  · have hlowered : Predicate.lowered ⟨.name, .any, .collection (.ofScalars
          [.text (.wildcard "Commons-IO*" true), .text (.wildcard "ΟΔΟΣ*" false)] (by decide))⟩ =
        ⟨.name, .any, .collection (.ofScalars
          [.text (.wildcard "commons-io*" true), .text (.wildcard "οδος*" false)]
            (by decide))⟩ := by
      decide +kernel
    obtain ⟨c, c', hc, hc', -, -, hsame, -⟩ := compile_lowered (p := ⟨.name, .any, .collection
      (.ofScalars [.text (.wildcard "Commons-IO*" true), .text (.wildcard "ΟΔΟΣ*" false)]
        (by decide))⟩) "p" (by decide +kernel) rfl
    rw [hlowered] at hc'
    refine ⟨c, c', hc, hc', hsame ?_ (by decide +kernel)⟩
    intro t ht
    rcases List.mem_pair.1 ht with rfl | rfl <;> exact ⟨_, _, rfl⟩
  · have hlowered : Predicate.lowered ⟨.version, .notEq, .wildcard "1.2.RC*" false⟩ =
        ⟨.version, .notEq, .wildcard "1.2.rc*" false⟩ := by
      decide +kernel
    obtain ⟨c, c', hc, hc', -, -, -, hlower⟩ := compile_lowered
      (p := ⟨.version, .notEq, .wildcard "1.2.RC*" false⟩) "p" (by decide +kernel) rfl
    rw [hlowered] at hc'
    exact ⟨c, c', hc, hc', hlower ⟨_, _, _, rfl⟩ _⟩

/-- The values are not the same when a pattern stands in for a search vector, or when a star makes
an end of a word; and not even the text is when two members become one. -/
theorem exists_compile_lowered_ne :
    (∃ c c' : Condition,
      compile .postgres "p" (compare .version .eq (.wildcard "1.2.RC*" false)) = .ok c ∧
      compile .postgres "p" (.atom (Predicate.lowered ⟨.version, .eq, .wildcard "1.2.RC*" false⟩)) =
        .ok c' ∧
      c.sqlText = "version LIKE #\x7bp.version0\x7d" ∧
      c.parameters.get? "version0" = some "1.2.RC%" ∧
      c'.parameters.get? "version0" = some "1.2.rc%") ∧
    (∃ c c' : Condition,
      compile .postgres "p" (compare .tags .eq (.wildcard "ΑΣ*Β" false)) = .ok c ∧
      compile .postgres "p" (.atom (Predicate.lowered ⟨.tags, .eq, .wildcard "ΑΣ*Β" false⟩)) =
        .ok c' ∧
      c.sqlText = "tsvector_tags @@ #\x7bp.tsvector_tags0\x7d::tsquery" ∧
      c.parameters.get? "tsvector_tags0" = some "'ασβ':*" ∧
      c'.parameters.get? "tsvector_tags0" = some "'αςβ':*") ∧
    ∃ c c' : Condition,
      compile .postgres "p" (compare .tags .any (.collection (.ofScalars
        [.text (.lenient "Java"), .text (.lenient "java")] (by decide)))) = .ok c ∧
      compile .postgres "p" (.atom (Predicate.lowered ⟨.tags, .any, .collection (.ofScalars
        [.text (.lenient "Java"), .text (.lenient "java")] (by decide))⟩)) = .ok c' ∧
      c.sqlText = "(tsvector_tags @@ #\x7bp.tsvector_tags0\x7d::tsquery OR " ++
        "tsvector_tags @@ #\x7bp.tsvector_tags1\x7d::tsquery)" ∧
      c'.sqlText = "tsvector_tags @@ #\x7bp.tsvector_tags0\x7d::tsquery" := by
  refine ⟨⟨_, _, compile_eq_ok_iff.2 ⟨by decide +kernel, rfl⟩,
      compile_eq_ok_iff.2 ⟨by decide +kernel, rfl⟩, ?_, ?_, ?_⟩,
    ⟨_, _, compile_eq_ok_iff.2 ⟨by decide +kernel, rfl⟩,
      compile_eq_ok_iff.2 ⟨by decide +kernel, rfl⟩, ?_, ?_, ?_⟩,
    ⟨_, _, compile_eq_ok_iff.2 ⟨by decide +kernel, rfl⟩,
      compile_eq_ok_iff.2 ⟨by decide +kernel, rfl⟩, ?_, ?_⟩⟩ <;>
  decide +kernel

end Expression

end SearchFilter
