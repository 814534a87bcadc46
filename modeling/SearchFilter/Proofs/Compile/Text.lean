import SearchFilter.Proofs.Compile.Operands
import SearchFilter.Proofs.Condition.Inlined

/-!
# The texts of filters

The pieces that filters are written in are tidy and spaced. Their slots are the values of their
tests, each with the column of its test.

Main statements: `Filter.tidy_pieces`, `Filter.spaced_pieces`, `Filter.slots_pieces`, and
`Filter.exists_about`, every comparison that is read is about one column.
-/

namespace SearchFilter

open Piece Sql

variable {d : Dialect}

/-! ## Texts with a column in them -/

namespace IsColumnName

variable {column s t : String}

theorem hash_not_mem (h : IsColumnName column) : '#' ∉ column.toList := by
  intro hmem
  exact absurd (h.rest _ hmem) (by decide)

theorem clean_append (h : IsColumnName column) (ht : '#' ∉ t.toList) :
    (Piece.text (column ++ t)).Clean := by
  constructor
  · intro heq
    have hnil := congrArg String.toList heq
    rw [String.toList_append] at hnil
    exact h.ne (List.append_eq_nil_iff.1 hnil).1
  · rw [String.toList_append, List.mem_append, not_or]
    exact ⟨h.hash_not_mem, ht⟩

theorem clean_around (h : IsColumnName column) (hs : '#' ∉ s.toList) (ht : '#' ∉ t.toList) :
    (Piece.text (s ++ column ++ t)).Clean := by
  obtain ⟨hne, hclean⟩ := h.clean_append ht
  constructor
  · intro heq
    have hnil := congrArg String.toList heq
    rw [String.append_assoc, String.toList_append] at hnil
    exact hne (String.toList_eq_nil_iff.1 (List.append_eq_nil_iff.1 hnil).2)
  · rw [String.append_assoc, String.toList_append, List.mem_append, not_or]
    exact ⟨hs, hclean⟩

theorem quote_not_mem_append (h : IsColumnName column) (ht : '\'' ∉ t.toList) :
    '\'' ∉ (column ++ t).toList := by
  rw [String.toList_append, List.mem_append, not_or]
  exact ⟨fun hmem => absurd (h.rest _ hmem) (by decide), ht⟩

theorem quote_not_mem_around (h : IsColumnName column) (hs : '\'' ∉ s.toList)
    (ht : '\'' ∉ t.toList) : '\'' ∉ (s ++ column ++ t).toList := by
  rw [String.append_assoc, String.toList_append, List.mem_append, not_or]
  exact ⟨hs, h.quote_not_mem_append ht⟩

end IsColumnName

theorem endsInWord_append (s : String) {t : String} (ht : t ≠ "") :
    endsInWord (s ++ t).toList = endsInWord t.toList := by
  have hne : t.toList ≠ [] := by simpa using ht
  unfold endsInWord
  rw [String.toList_append, List.getLast?_append_of_ne_nil _ hne]

/-! ## Comparisons -/

namespace Comparison

/-- The values that a comparison compares its column with. -/
def values : Comparison → List String
  | absent _ => []
  | equals _ value => [value]
  | oneOf _ first rest => first :: rest
  | regex _ pattern | like _ pattern | likeAnyCase _ pattern => [pattern]
  | search _ query => query.texts

/-- The slots of a comparison. -/
def slots (c : Comparison) : List Slot := c.values.map fun value => ⟨c.column, value⟩

theorem tidy_querySlot (column query : String) : Tidy (TextQuery.slot column query) :=
  (tidy_text ⟨by decide, by decide⟩).cons_slot column query

theorem tidy_queryPieces (column : String) (query : TextQuery) :
    Tidy (queryPieces column query) := by
  unfold queryPieces
  split
  · exact tidy_querySlot column _
  · refine ((tidy_querySlot column _).separated ⟨by decide, by decide, by decide, by decide⟩ ?_)
      |>.parenthesized
    rw [List.forall_mem_singleton]
    exact tidy_querySlot column _

theorem tidy_pieces {c : Comparison} (h : IsColumnName c.column) : Tidy (c.pieces d) := by
  cases c with
  | absent column => exact tidy_text (IsColumnName.clean_append h (by decide))
  | equals column | like column =>
    refine (tidy_slot column _).cons_text (IsColumnName.clean_append h (by decide)) ?_
    exact endsInWord_append column (by decide)
  | oneOf column first rest =>
    have hvalues : Tidy (parenthesized (separated ", " [slot column first]
        (rest.map fun value => [slot column value]))) := by
      refine ((tidy_slot column first).separated ⟨by decide, by decide, by decide, by decide⟩ ?_)
        |>.parenthesized
      rw [List.forall_mem_map]
      exact fun value _ => tidy_slot column value
    refine hvalues.cons_text (IsColumnName.clean_append h (by decide)) ?_
    exact endsInWord_append column (by decide)
  | regex column pattern =>
    cases d with
    | postgres =>
      refine (tidy_slot column pattern).cons_text (IsColumnName.clean_append h (by decide)) ?_
      exact endsInWord_append column (by decide)
    | h2 =>
      refine ((tidy_text ⟨by decide, by decide⟩).cons_slot column pattern).cons_text
        (IsColumnName.clean_around h (by decide) (by decide)) ?_
      exact endsInWord_append _ (by decide)
  | likeAnyCase column pattern =>
    refine ((tidy_text ⟨by decide, by decide⟩).cons_slot column pattern).cons_text
      (IsColumnName.clean_around h (by decide) (by decide)) ?_
    exact endsInWord_append _ (by decide)
  | search column query =>
    refine (tidy_queryPieces column query).cons_text (IsColumnName.clean_append h (by decide)) ?_
    exact endsInWord_append column (by decide)

theorem tidy_negatedPieces {c : Comparison} (h : IsColumnName c.column) :
    Tidy (c.negatedPieces d) := by
  have hnot : Tidy (text "NOT " :: parenthesized (c.pieces d)) :=
    (tidy_pieces h).parenthesized.cons_text ⟨by decide, by decide⟩ (by decide)
  cases c with
  | absent column => exact tidy_text (IsColumnName.clean_append h (by decide))
  | equals column | like column =>
    refine (tidy_slot column _).cons_text (IsColumnName.clean_append h (by decide)) ?_
    exact endsInWord_append column (by decide)
  | oneOf | regex | likeAnyCase | search => exact hnot

theorem spaced_queryPieces (column : String) (query : TextQuery) :
    Spaced (queryPieces column query) := by
  have hslot : ∀ text, Spaced (TextQuery.slot column text) := fun text =>
    .slot_text column text (.text (by decide) .nil)
  unfold queryPieces
  split
  · exact hslot _
  · exact ((hslot _).separated (by decide) (List.forall_mem_singleton.2 (hslot _))).parenthesized

theorem spaced_pieces {c : Comparison} (h : IsColumnName c.column) : Spaced (c.pieces d) := by
  cases c with
  | absent column => exact .text (IsColumnName.quote_not_mem_append h (by decide)) .nil
  | equals column value | like column value =>
    exact .text (IsColumnName.quote_not_mem_append h (by decide)) (.slot column value)
  | oneOf column first rest =>
    refine .text (IsColumnName.quote_not_mem_append h (by decide)) ?_
    refine (Spaced.separated (.slot column first) (by decide) ?_).parenthesized
    rw [List.forall_mem_map]
    exact fun value _ => .slot column value
  | regex column pattern =>
    cases d with
    | postgres =>
      exact .text (IsColumnName.quote_not_mem_append h (by decide)) (.slot column pattern)
    | h2 =>
      exact .text (IsColumnName.quote_not_mem_around h (by decide) (by decide))
        (.slot_text column pattern (.text (by decide) .nil))
  | likeAnyCase column pattern =>
    exact .text (IsColumnName.quote_not_mem_around h (by decide) (by decide))
      (.slot_text column pattern (.text (by decide) .nil))
  | search column query =>
    exact .text (IsColumnName.quote_not_mem_append h (by decide)) (spaced_queryPieces column query)

theorem spaced_negatedPieces {c : Comparison} (h : IsColumnName c.column) :
    Spaced (c.negatedPieces d) := by
  have hnot : Spaced (text "NOT " :: parenthesized (c.pieces d)) :=
    .text (by decide) (spaced_pieces h).parenthesized
  cases c with
  | absent column => exact .text (IsColumnName.quote_not_mem_append h (by decide)) .nil
  | equals column value | like column value =>
    exact .text (IsColumnName.quote_not_mem_append h (by decide)) (.slot column value)
  | oneOf | regex | likeAnyCase | search => exact hnot

theorem slots_queryPieces (column : String) (query : TextQuery) :
    Piece.slots (queryPieces column query) = query.texts.map fun value => ⟨column, value⟩ := by
  unfold queryPieces TextQuery.texts
  cases query.phraseText? with
  | none => rfl
  | some phrase => rfl

theorem slots_pieces (c : Comparison) : Piece.slots (c.pieces d) = c.slots := by
  cases c with
  | absent | equals | like | likeAnyCase => rfl
  | oneOf column first rest =>
    have hcons : Piece.slots ((oneOf column first rest).pieces d) =
        Piece.slots (parenthesized (separated ", " [slot column first]
          (rest.map fun value => [slot column value]))) := rfl
    rw [hcons, slots_parenthesized, slots_separated, List.flatMap_map]
    exact congrArg (_ :: ·) (List.flatMap_pure_eq_map _ _)
  | regex => cases d <;> rfl
  | search column query => exact slots_queryPieces column query

theorem slots_negatedPieces (c : Comparison) : Piece.slots (c.negatedPieces d) = c.slots := by
  have hnot : Piece.slots (text "NOT " :: parenthesized (c.pieces d)) = c.slots :=
    (slots_parenthesized _).trans c.slots_pieces
  cases c with
  | absent | equals | like => rfl
  | oneOf | regex | likeAnyCase | search => exact hnot

end Comparison

/-! ## Tests, fragments and filters -/

namespace Piece

/-- Whether a group of pieces has a property as soon as its members have it. -/
def Groups (P : List Piece → Prop) : Prop :=
  ∀ (op : Connective) {first : List Piece} {rest : List (List Piece)}, P first →
    (∀ ps ∈ rest, P ps) → P (parenthesized (separated op.joiner first rest))

theorem groups_tidy : Groups Tidy := fun op _ _ hfirst hrest =>
  (hfirst.separated (by cases op <;> exact ⟨by decide, by decide, by decide, by decide⟩)
    hrest).parenthesized

theorem groups_spaced : Groups Spaced := fun op _ _ hfirst hrest =>
  (hfirst.separated (by cases op <;> decide) hrest).parenthesized

end Piece

namespace Test

theorem tidy_pieces {t : Test} (h : IsColumnName t.comparison.column) : Tidy (t.pieces d) := by
  unfold pieces
  split
  · exact Comparison.tidy_negatedPieces h
  · exact Comparison.tidy_pieces h

theorem spaced_pieces {t : Test} (h : IsColumnName t.comparison.column) : Spaced (t.pieces d) := by
  unfold pieces
  split
  · exact Comparison.spaced_negatedPieces h
  · exact Comparison.spaced_pieces h

theorem slots_pieces (t : Test) : slots (t.pieces d) = t.comparison.slots := by
  unfold pieces
  split
  · exact t.comparison.slots_negatedPieces
  · exact t.comparison.slots_pieces

end Test

namespace Fragment

/-- The slots of the tests of a fragment. -/
def slots (f : Fragment) : List Slot := f.tests.flatMap (·.comparison.slots)

theorem pieces_of_tests {P : List Piece → Prop} (hgroup : Groups P) {f : Fragment}
    (h : ∀ t ∈ f.tests, P (t.pieces d)) : P (f.pieces d) := by
  rw [tests, List.forall_mem_cons] at h
  unfold pieces
  split
  · exact h.1
  · refine hgroup .or h.1 ?_
    rw [List.forall_mem_map]
    exact h.2

theorem isColumnName_of_mem_tests {f : Fragment} (h : f.columns ⊆ columnNames) :
    ∀ t ∈ f.tests, IsColumnName t.comparison.column :=
  fun _ ht => isColumnName_of_mem (h (List.mem_map_of_mem ht))

theorem slots_pieces (f : Fragment) : Piece.slots (f.pieces d) = f.slots := by
  obtain ⟨first, rest⟩ := f
  cases rest with
  | nil =>
    rw [pieces, Test.slots_pieces]
    exact (List.append_nil _).symm
  | cons second rest =>
    rw [pieces, slots_parenthesized, slots_separated, Test.slots_pieces, List.flatMap_map]
    exact congrArg _ (List.flatMap_congr fun t _ => t.slots_pieces)

theorem columns_of_mem_slots {f : Fragment} {s : Slot} (h : s ∈ f.slots) :
    s.column ∈ f.columns := by
  obtain ⟨t, ht, hs⟩ := List.mem_flatMap.1 h
  obtain ⟨value, -, rfl⟩ := List.mem_map.1 hs
  exact List.mem_map_of_mem ht

end Fragment

namespace Filter

variable {f : Filter}

/-- What the pieces of all tests have in common, and groups keep, the pieces of a filter have. -/
theorem pieces_of_tests {P : List Piece → Prop} (hgroup : Groups P)
    (h : ∀ g ∈ f.atoms, ∀ t ∈ g.tests, P (t.pieces d)) : P (f.pieces d) := by
  induction f using Formula.induct_children with
  | atom g => exact Fragment.pieces_of_tests hgroup (h g (by simp))
  | clause op first rest ih =>
    rw [Formula.forall_mem_atoms_clause] at h
    have heach : ∀ f ∈ first :: rest, P (pieces d f) := fun f hf => ih f hf (h f hf)
    rw [List.forall_mem_cons] at heach
    rw [pieces_clause]
    refine hgroup op heach.1 ?_
    rw [List.forall_mem_map]
    exact heach.2

theorem tidy_pieces (h : ∀ g ∈ f.atoms, g.columns ⊆ columnNames) : Tidy (f.pieces d) :=
  pieces_of_tests groups_tidy fun g hg t ht =>
    Test.tidy_pieces (Fragment.isColumnName_of_mem_tests (h g hg) t ht)

theorem spaced_pieces (h : ∀ g ∈ f.atoms, g.columns ⊆ columnNames) : Spaced (f.pieces d) :=
  pieces_of_tests groups_spaced fun g hg t ht =>
    Test.spaced_pieces (Fragment.isColumnName_of_mem_tests (h g hg) t ht)

theorem slots_pieces (f : Filter) : slots (f.pieces d) = f.atoms.flatMap Fragment.slots := by
  induction f using Formula.induct with
  | atom g =>
    rw [pieces_atom, Fragment.slots_pieces, Formula.atoms_atom, List.flatMap_singleton]
  | clause op first rest hf hr =>
    rw [pieces_clause, slots_parenthesized, slots_separated, hf, List.flatMap_map,
      Formula.atoms_clause, List.flatMap_append, List.flatMap_assoc]
    exact congrArg _ (List.flatMap_congr hr)

theorem columns_of_mem_slots (h : ∀ g ∈ f.atoms, g.columns ⊆ columnNames) :
    ∀ s ∈ slots (f.pieces d), s.column ∈ columnNames := by
  rw [slots_pieces]
  intro s hs
  obtain ⟨g, hg, hsg⟩ := List.mem_flatMap.1 hs
  exact h g hg (Fragment.columns_of_mem_slots hsg)

end Filter

/-! ## The column of a comparison -/

/-- The tokens of a comparison with one column: it is the only name among them, and their
placeholders are for its values. -/
structure About (column : String) (ts : List (Token Slot)) : Prop where
  names_eq : names ts = [column.toList]
  columns : ∀ s ∈ holes ts, s.column = column

theorem names_word_cons {column : String} (h : IsColumnName column) {ts : List (Token Slot)}
    (hts : names ts = []) : names (.word column.toList :: ts) = [column.toList] := by
  unfold names at hts ⊢
  rw [List.filterMap_cons_some h.name?, hts]

namespace Comparison

theorem names_queryPieces (column : String) (query : TextQuery) :
    names (allTokens (queryPieces column query)) = [] := by
  have hslot : ∀ text, names (allTokens (TextQuery.slot column text)) = [] := fun text => rfl
  unfold queryPieces
  split
  · exact hslot _
  · rw [allTokens_parenthesized, allTokens_separated, List.flatMap_singleton, allTokens_slot,
      allTokens_slot]
    rfl

theorem names_tokens {c : Comparison} (h : IsColumnName c.column) :
    names (c.tokens d) = [c.column.toList] := by
  cases c with
  | absent column =>
    have hcol : IsColumnName column := h
    rw [tokens_absent hcol]
    exact names_word_cons hcol rfl
  | equals column value =>
    have hcol : IsColumnName column := h
    rw [tokens_equals hcol]
    exact names_word_cons hcol rfl
  | oneOf column first rest =>
    have hcol : IsColumnName column := h
    have hrest :
        names (rest.flatMap fun value => [.sign ',', .hole (Slot.mk column value)]) = [] := by
      induction rest with
      | nil => rfl
      | cons value rest ih => exact ih h
    have hvalues : names ((.hole (Slot.mk column first) ::
        rest.flatMap fun value => [.sign ',', .hole (Slot.mk column value)]) ++
          [.closing]) = [] := by
      rw [names_append]
      exact congrArg (· ++ []) hrest
    rw [tokens_oneOf hcol]
    exact names_word_cons hcol hvalues
  | regex column pattern =>
    have hcol : IsColumnName column := h
    cases d with
    | postgres =>
      rw [tokens_regex_postgres hcol]
      exact names_word_cons hcol rfl
    | h2 =>
      rw [tokens_regex_h2 hcol]
      exact names_word_cons hcol rfl
  | like column pattern =>
    have hcol : IsColumnName column := h
    rw [tokens_like hcol]
    exact names_word_cons hcol rfl
  | likeAnyCase column pattern =>
    have hcol : IsColumnName column := h
    rw [tokens_likeAnyCase hcol]
    exact names_word_cons hcol rfl
  | search column query =>
    have hcol : IsColumnName column := h
    rw [tokens_search hcol]
    exact names_word_cons hcol (names_queryPieces column query)

theorem columns_of_mem_slots {c : Comparison} : ∀ s ∈ c.slots, s.column = c.column := by
  intro s hs
  obtain ⟨value, -, rfl⟩ := List.mem_map.1 hs
  rfl

end Comparison

namespace Test

variable {t : Test}

theorem holes_of_mem_atoms : ∀ a ∈ (t.tree d).atoms, holes a = t.comparison.slots := by
  obtain ⟨negated, c⟩ := t
  have hpositive : holes (c.tokens d) = c.slots := by
    rw [Comparison.tokens, holes_allTokens, Comparison.slots_pieces]
  have hnegated : holes (allTokens (c.negatedPieces d)) = c.slots := by
    rw [holes_allTokens, Comparison.slots_negatedPieces]
  cases negated with
  | false => exact List.forall_mem_singleton.2 hpositive
  | true =>
    cases c with
    | absent | equals | like => exact List.forall_mem_singleton.2 hnegated
    | oneOf | regex | likeAnyCase | search => exact List.forall_mem_singleton.2 hpositive

theorem names_of_mem_atoms (h : IsColumnName t.comparison.column) :
    ∀ a ∈ (t.tree d).atoms, names a = [t.comparison.column.toList] := by
  obtain ⟨negated, c⟩ := t
  have hpositive : names (c.tokens d) = [c.column.toList] := Comparison.names_tokens h
  cases negated with
  | false => exact List.forall_mem_singleton.2 hpositive
  | true =>
    cases c with
    | absent column =>
      have hcol : IsColumnName column := h
      refine List.forall_mem_singleton.2 ?_
      rw [pieces, if_pos rfl, Comparison.allTokens_negated_absent hcol]
      exact names_word_cons hcol rfl
    | equals column value =>
      have hcol : IsColumnName column := h
      refine List.forall_mem_singleton.2 ?_
      rw [pieces, if_pos rfl, Comparison.allTokens_negated_equals hcol]
      exact names_word_cons hcol rfl
    | like column pattern =>
      have hcol : IsColumnName column := h
      refine List.forall_mem_singleton.2 ?_
      rw [pieces, if_pos rfl, Comparison.allTokens_negated_like hcol]
      exact names_word_cons hcol rfl
    | oneOf | regex | likeAnyCase | search => exact List.forall_mem_singleton.2 hpositive

theorem about_of_mem_atoms (h : IsColumnName t.comparison.column) {a : List (Token Slot)}
    (ha : a ∈ (t.tree d).atoms) : About t.comparison.column a where
  names_eq := names_of_mem_atoms h a ha
  columns := by
    rw [holes_of_mem_atoms a ha]
    exact Comparison.columns_of_mem_slots

end Test

/-- Every comparison that a filter is read as is about one column. -/
theorem Filter.exists_about {f : Filter} (h : ∀ g ∈ f.atoms, g.columns ⊆ columnNames) :
    ∀ a ∈ (f.tree d).atoms, ∃ column ∈ columnNames, About column a := by
  intro a ha
  obtain ⟨g, hg, hag⟩ := mem_atoms_tree.1 ha
  rw [Fragment.tree, Tree.mem_atoms_join] at hag
  obtain ⟨t, ht, hat⟩ := hag
  have hcolumn := h g hg (List.mem_map_of_mem ht)
  exact ⟨_, hcolumn, Test.about_of_mem_atoms (isColumnName_of_mem hcolumn) hat⟩

end SearchFilter
