import SearchFilter.Proofs.Compile.Slots
import SearchFilter.Proofs.Pattern.Lexemes

/-!
# The grammar of comparisons

The comparisons that a dialect has in its conditions, token by token. No list of values in them is
empty, a search vector is asked for one query or two, and no value that is compared with is the
empty text. Every fragment of a predicate is made of such comparisons.

Main statement: `Predicate.wellFormed_of_rendered`.
-/

namespace SearchFilter

open Piece Sql

/-! ## Comparisons -/

/-- A value in a list, after another one. -/
def listedTokens (s : Slot) : List (Token Slot) := [.sign ',', .hole s]

/-- A value as the query of a search vector. -/
def queryTokens (s : Slot) : List (Token Slot) :=
  [.hole s, .sign ':', .sign ':', .word "tsquery".toList]

/-- The comparisons of a dialect with one column. -/
inductive IsComparison (d : Dialect) (column : List Char) : List (Token Slot) → Prop
  | isNull : IsComparison d column [.word column, .word "IS".toList, .word "NULL".toList]
  | isNotNull : IsComparison d column
      [.word column, .word "IS".toList, .word "NOT".toList, .word "NULL".toList]
  | equals (s : Slot) : IsComparison d column [.word column, .sign '=', .hole s]
  | differs (s : Slot) : IsComparison d column [.word column, .sign '<', .sign '>', .hole s]
  | isIn (s : Slot) (rest : List Slot) : IsComparison d column
      (.word column :: .word "IN".toList :: .opening ::
        ((.hole s :: rest.flatMap listedTokens) ++ [.closing]))
  | like (hd : d = .postgres) (s : Slot) :
      IsComparison d column [.word column, .word "LIKE".toList, .hole s]
  | notLike (hd : d = .postgres) (s : Slot) : IsComparison d column
      [.word column, .word "NOT".toList, .word "LIKE".toList, .hole s]
  | regex (hd : d = .postgres) (s : Slot) :
      IsComparison d column [.word column, .sign '~', .hole s]
  | regexpLike (hd : d = .h2) (s : Slot) : IsComparison d column
      [.word "REGEXP_LIKE".toList, .opening, .word column, .sign ',', .hole s, .closing]
  | likeAnyCase (hd : d = .h2) (s : Slot) : IsComparison d column
      [.word "LOWER".toList, .opening, .word column, .closing, .word "LIKE".toList,
        .word "LOWER".toList, .opening, .hole s, .closing]
  | search (hd : d = .postgres) (s : Slot) : IsComparison d column
      (.word column :: .sign '@' :: .sign '@' :: queryTokens s)
  | searchEither (hd : d = .postgres) (s t : Slot) : IsComparison d column
      (.word column :: .sign '@' :: .sign '@' :: .opening ::
        ((queryTokens s ++ .sign '|' :: .sign '|' :: queryTokens t) ++ [.closing]))

/-- Every comparison of a tree is one of the dialect with one column of the database, and the values
in it are not empty. -/
def WellWritten (d : Dialect) (t : TokenTree Slot) : Prop :=
  ∀ a ∈ t.atoms, ∃ column ∈ columnNames, IsComparison d column.toList a ∧
    ∀ s ∈ holes a, s.column = column ∧ s.value ≠ ""

variable {d : Dialect}

namespace Comparison

/-- Whether a dialect has a comparison. -/
def OfDialect (d : Dialect) : Comparison → Prop
  | like _ _ | search _ _ => d = .postgres
  | likeAnyCase _ _ => d = .h2
  | absent _ | equals _ _ | oneOf _ _ _ | regex _ _ => True

variable {c : Comparison}

theorem isComparison_tokens (hcolumn : IsColumnName c.column) (h : c.OfDialect d) :
    IsComparison d c.column.toList (c.tokens d) := by
  cases c with
  | absent column =>
    have hcol : IsColumnName column := hcolumn
    rw [tokens_absent hcol]
    exact .isNull
  | equals column value =>
    have hcol : IsColumnName column := hcolumn
    rw [tokens_equals hcol]
    exact .equals _
  | oneOf column first rest =>
    have hcol : IsColumnName column := hcolumn
    have hvalues : (rest.flatMap fun value => listedTokens (Slot.mk column value)) =
        (rest.map (Slot.mk column)).flatMap listedTokens := by rw [List.flatMap_map]
    rw [tokens_oneOf hcol]
    exact hvalues ▸ .isIn _ _
  | regex column pattern =>
    have hcol : IsColumnName column := hcolumn
    cases d with
    | postgres =>
      rw [tokens_regex_postgres hcol]
      exact .regex rfl _
    | h2 =>
      rw [tokens_regex_h2 hcol]
      exact .regexpLike rfl _
  | like column pattern =>
    have hcol : IsColumnName column := hcolumn
    rw [tokens_like hcol]
    exact .like h _
  | likeAnyCase column pattern =>
    have hcol : IsColumnName column := hcolumn
    rw [tokens_likeAnyCase hcol]
    exact .likeAnyCase h _
  | search column query =>
    have hcol : IsColumnName column := hcolumn
    rw [tokens_search hcol]
    unfold queryPieces
    split
    · exact .search h _
    · rw [allTokens_parenthesized, allTokens_separated, List.flatMap_singleton]
      exact .searchEither h _ _

end Comparison

namespace Test

variable {t : Test}

theorem isComparison_of_mem_atoms (hcolumn : IsColumnName t.comparison.column)
    (h : t.comparison.OfDialect d) :
    ∀ a ∈ (t.tree d).atoms, IsComparison d t.comparison.column.toList a := by
  obtain ⟨negated, c⟩ := t
  have hpositive : IsComparison d c.column.toList (c.tokens d) :=
    Comparison.isComparison_tokens hcolumn h
  cases negated with
  | false => exact List.forall_mem_singleton.2 hpositive
  | true =>
    cases c with
    | absent column =>
      have hcol : IsColumnName column := hcolumn
      refine List.forall_mem_singleton.2 ?_
      rw [pieces, if_pos rfl, Comparison.allTokens_negated_absent hcol]
      exact .isNotNull
    | equals column value =>
      have hcol : IsColumnName column := hcolumn
      refine List.forall_mem_singleton.2 ?_
      rw [pieces, if_pos rfl, Comparison.allTokens_negated_equals hcol]
      exact .differs _
    | like column pattern =>
      have hcol : IsColumnName column := hcolumn
      refine List.forall_mem_singleton.2 ?_
      rw [pieces, if_pos rfl, Comparison.allTokens_negated_like hcol]
      exact .notLike h _
    | oneOf | regex | likeAnyCase | search => exact List.forall_mem_singleton.2 hpositive

end Test

/-! ## Values -/

theorem Pattern.value_ne_empty {p : Pattern} (h : p.isBlank = false) : p.value ≠ "" := by
  intro hempty
  cases p with
  | exact v | wildcard v tokenize | lenient v =>
    cases hempty
    cases h

theorem Scalar.value_ne_empty {s : Scalar} (h : s.isBlank = false) {value : String}
    (hvalue : s.value? = some value) : value ≠ "" := by
  cases s with
  | null => cases hvalue
  | text p =>
    cases hvalue
    exact Pattern.value_ne_empty h

theorem quoteLexeme_ne_empty (s : String) : quoteLexeme s ≠ "" := by
  rw [quoteLexeme, ne_eq, String.ofList_eq_empty_iff]
  exact List.cons_ne_nil _ _

theorem Lexeme.render_ne_empty (l : Lexeme) : l.render ≠ "" := by
  rw [render, ne_eq, String.append_eq_empty_iff]
  exact fun h => quoteLexeme_ne_empty _ h.1

theorem Lexeme.renderPhrase_ne_empty {ls : List Lexeme} (h : ls ≠ []) : renderPhrase ls ≠ "" := by
  cases ls with
  | nil => exact absurd rfl h
  | cons l ls =>
    rw [renderPhrase, List.map_cons]
    cases ls with
    | nil => exact l.render_ne_empty
    | cons m ls =>
      rw [List.map_cons, String.intercalate_cons_cons, String.append_assoc, ne_eq,
        String.append_eq_empty_iff]
      exact fun h => l.render_ne_empty h.1

theorem Pattern.text_ne_empty_of_mem_query (p : Pattern) : ∀ text ∈ p.query.texts, text ≠ "" := by
  rw [TextQuery.texts, List.forall_mem_cons]
  refine ⟨Lexeme.render_ne_empty _, fun text htext => ?_⟩
  rw [Option.mem_toList, TextQuery.phraseText?, Option.map_eq_some_iff] at htext
  obtain ⟨ls, hls, rfl⟩ := htext
  exact Lexeme.renderPhrase_ne_empty (ne_nil_of_query_phrase? hls)

theorem Pattern.containing_ne_empty (p : Pattern) : p.containing ≠ "" := by
  cases p <;>
  · rw [containing, ne_eq, String.ofList_eq_empty_iff]
    exact List.cons_ne_nil _ _

theorem prefixPattern_ne_empty (s : String) : prefixPattern s ≠ "" := by
  rw [prefixPattern, ne_eq, String.ofList_eq_empty_iff, List.append_eq_nil_iff]
  rintro ⟨hnone, hlast⟩
  split at hlast
  · next hstar =>
    rw [List.flatMap_eq_nil_iff] at hnone
    exact absurd (hnone '*' (List.mem_of_getLast? hstar)) (by decide)
  · cases hlast

/-! ## Fragments -/

namespace Column

variable {c : Column} {op : Operand} {first : Scalar} {rest : List Scalar} {f : Fragment}

theorem exists_of_dotted? {column pattern : String}
    (h : c.dotted? d first rest = some (column, pattern)) :
    d = .postgres ∧ ∃ v, pattern = prefixPattern v := by
  unfold dotted? at h
  split at h
  · next v tokenize hcompanion =>
    split at h
    · cases h
      exact ⟨rfl, v, rfl⟩
    · cases h
  · cases h

theorem Renders.ofDialect (h : c.Renders d op first rest f) :
    ∀ t ∈ f.tests, t.comparison.OfDialect d := by
  cases h with
  | whole hop hw =>
    cases first <;> exact List.forall_mem_singleton.2 trivial
  | membership hw hrest => exact List.forall_mem_singleton.2 trivial
  | regex hr => exact List.forall_mem_singleton.2 trivial
  | dotted hop hw hd => exact List.forall_mem_singleton.2 (exists_of_dotted? hd).1
  | search hop hw hd =>
    have hone : ∀ s, (c.searchTest d (op == .notEq) s).comparison.OfDialect d := by
      intro s
      cases s with
      | null => trivial
      | text p => cases d <;> rfl
    rw [Fragment.tests, List.forall_mem_cons, List.forall_mem_map]
    exact ⟨hone first, fun s _ => hone s⟩

theorem Renders.value_ne_empty (h : c.Renders d op first rest f)
    (hblank : ∀ s ∈ first :: rest, s.isBlank = false) :
    ∀ t ∈ f.tests, ∀ value ∈ t.comparison.values, value ≠ "" := by
  cases h with
  | whole hop hw =>
    cases first with
    | null => exact List.forall_mem_singleton.2 (List.forall_mem_nil _)
    | text p =>
      refine List.forall_mem_singleton.2 (List.forall_mem_singleton.2 ?_)
      exact Pattern.value_ne_empty (hblank _ List.mem_cons_self)
  | @membership p rest values hw hrest =>
    have hvalues : p.value :: values = (.text p :: rest).filterMap Scalar.value? := by
      rw [filterMap_value?_cons_text, filterMap_value?_of_texts? hrest]
    have hmem : ∀ value ∈ p.value :: values, value ≠ "" := by
      rw [hvalues]
      intro value hvalue
      obtain ⟨s, hs, hsome⟩ := List.mem_filterMap.1 hvalue
      exact Scalar.value_ne_empty (hblank s hs) hsome
    exact List.forall_mem_singleton.2 hmem
  | regex hr =>
    refine List.forall_mem_singleton.2 (List.forall_mem_singleton.2 ?_)
    exact Pattern.value_ne_empty (hblank _ List.mem_cons_self)
  | dotted hop hw hd =>
    obtain ⟨-, v, rfl⟩ := exists_of_dotted? hd
    exact List.forall_mem_singleton.2 (List.forall_mem_singleton.2 (prefixPattern_ne_empty v))
  | search hop hw hd =>
    have hone : ∀ s, ∀ value ∈ (c.searchTest d (op == .notEq) s).comparison.values, value ≠ "" := by
      intro s
      cases s with
      | null => exact List.forall_mem_nil _
      | text p =>
        cases d with
        | postgres => exact p.text_ne_empty_of_mem_query
        | h2 => exact List.forall_mem_singleton.2 p.containing_ne_empty
    rw [Fragment.tests, List.forall_mem_cons, List.forall_mem_map]
    exact ⟨hone first, fun s _ => hone s⟩

end Column

/-- A fragment with a text that is read as comparisons of the dialect. -/
def Fragment.WellFormed (d : Dialect) (f : Fragment) : Prop :=
  ∃ t, readTokens (allTokens (f.pieces d)) = some t ∧ WellWritten d t

namespace Predicate

variable {p : Predicate} {f : Fragment}

theorem wellWritten_of_rendered (h : p.outcome d = .rendered f) : WellWritten d (f.tree d) := by
  obtain ⟨c, first, rest, hc, he, hr⟩ := exists_of_outcome_eq_rendered h
  have hblank : ∀ s ∈ first :: rest, s.isBlank = false := by
    rw [← he, effective]
    intro s hs
    simpa using (List.mem_filter.1 hs).2
  intro a ha
  rw [Fragment.tree, Tree.mem_atoms_join] at ha
  obtain ⟨t, ht, hat⟩ := ha
  have hcolumn : t.comparison.column ∈ columnNames :=
    columns_subset_of_rendered h (List.mem_map_of_mem ht)
  refine ⟨_, hcolumn,
    Test.isComparison_of_mem_atoms (isColumnName_of_mem hcolumn) (hr.ofDialect t ht) a hat, ?_⟩
  rw [Test.holes_of_mem_atoms a hat]
  intro s hs
  obtain ⟨value, hvalue, rfl⟩ := List.mem_map.1 hs
  exact ⟨rfl, hr.value_ne_empty hblank t ht value hvalue⟩

/-- What is rendered of a predicate is well formed. -/
theorem wellFormed_of_rendered (h : p.outcome d = .rendered f) : f.WellFormed d :=
  ⟨f.tree d, (Fragment.isOperand_pieces (columns_subset_of_rendered h)).readTokens_eq,
    wellWritten_of_rendered h⟩

end Predicate

/-! ## Filters -/

theorem Expression.wellWritten_of_filter? {e : Expression} {f : Filter}
    (h : e.filter? d = some f) : WellWritten d (f.tree d) := by
  intro a ha
  obtain ⟨g, hg, hag⟩ := Filter.mem_atoms_tree.1 ha
  rw [Formula.atoms_of_prune h] at hg
  obtain ⟨p, -, hp⟩ := List.mem_filterMap.1 hg
  exact Predicate.wellWritten_of_rendered (Outcome.fragment?_eq_some_iff.1 hp) a hag

end SearchFilter
