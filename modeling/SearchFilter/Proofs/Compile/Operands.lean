import SearchFilter.Proofs.Compile.Fragment
import SearchFilter.Proofs.Condition.Slot

/-!
# Fragments and filters as operands

Wherever the text of a fragment or of a filter stands, it is read as one operand, and its logic is
that of the fragment or filter. Where a negation has an operator of its own it is a comparison like
any other.

Main statement: `Filter.isOperand_pieces`.
-/

namespace SearchFilter

open Piece Sql

variable {d : Dialect}

/-! ## Texts with a column in them -/

theorem IsColumnName.isWord {column : String} (h : IsColumnName column) {text : String}
    (htext : text ∈ ["AND", "OR", "NOT"]) :
    (Token.word column.toList : Token Slot).isWord text = false := by
  have hand := h.own "AND" (by simp [Token.sqlWords])
  have hor := h.own "OR" (by simp [Token.sqlWords])
  have hnot := h.own "NOT" (by simp [Token.sqlWords])
  have hne : ∀ text ∈ ["AND", "OR", "NOT"], column.toList.map Char.toUpper ≠ text.toList := by
    rw [List.forall_mem_cons, List.forall_mem_cons, List.forall_mem_singleton]
    exact ⟨hand, hor, hnot⟩
  simpa [Token.isWord] using hne text htext

theorem IsColumnName.isPlain {column : String} (h : IsColumnName column) :
    (Token.word column.toList : Token Slot).isPlain = true := by
  rw [Token.isPlain, List.all_eq_true]
  · intro text htext
    have hmem : text ∈ ["AND", "OR", "NOT"] := List.mem_append_left ["NOT"] htext
    rw [h.isWord hmem, Bool.not_false]
  all_goals simp

/-- A word that is a column starts a comparison. -/
theorem IsColumnName.isOperand {column : String} (h : IsColumnName column)
    {ts : List (Token Slot)} (hts : IsStretch ts) :
    IsOperand (.word column.toList :: ts) (.atom (.word column.toList :: ts)) :=
  .atom h.isPlain (h.isWord (by simp)) hts

theorem IsColumnName.name? {column : String} (h : IsColumnName column) :
    (Token.word column.toList : Token Slot).name? = some column.toList := by
  rw [Token.name?, if_neg]
  intro hmem
  obtain ⟨word, hword, heq⟩ := List.mem_map.1 hmem
  exact h.own word hword (by rw [heq])

theorem tokens_text_name {column : String} (h : IsColumnName column) {s : String}
    (hs : startsInWord s.toList = false) :
    (Piece.text (column ++ s)).tokens = .word column.toList :: lex s.toList := by
  rw [Piece.tokens, String.toList_append, lex_append (.inr hs), lex_word h.ne h.rest]
  rfl

theorem tokens_text_around {column : String} (h : IsColumnName column) {s t : String}
    (hs : endsInWord s.toList = false) (ht : startsInWord t.toList = false) :
    (Piece.text (s ++ column ++ t)).tokens =
      lex s.toList ++ .word column.toList :: lex t.toList := by
  rw [Piece.tokens, String.toList_append, lex_append (.inr ht), String.toList_append,
    lex_append (.inl hs), lex_word h.ne h.rest, List.append_assoc]
  rfl

/-! ## Comparisons -/

namespace Comparison

variable {column : String}

/-- The tokens of a comparison. -/
def tokens (d : Dialect) (c : Comparison) : List (Token Slot) := allTokens (c.pieces d)

theorem tokens_absent (h : IsColumnName column) :
    (absent column).tokens d = [.word column.toList, .word "IS".toList, .word "NULL".toList] := by
  rw [tokens, pieces, allTokens_cons, tokens_text_name h (by rfl)]
  rfl

theorem tokens_equals (h : IsColumnName column) (value : String) :
    (equals column value).tokens d = [.word column.toList, .sign '=', .hole ⟨column, value⟩] := by
  rw [tokens, pieces, allTokens_cons, tokens_text_name h (by rfl)]
  rfl

theorem tokens_oneOf (h : IsColumnName column) (first : String) (rest : List String) :
    (oneOf column first rest).tokens d =
      .word column.toList :: .word "IN".toList :: .opening ::
        ((.hole ⟨column, first⟩ ::
          rest.flatMap fun value => [.sign ',', .hole ⟨column, value⟩]) ++ [.closing]) := by
  rw [tokens, pieces, allTokens_cons, tokens_text_name h (by rfl), allTokens_parenthesized,
    allTokens_separated, List.flatMap_map]
  rfl

theorem tokens_regex_postgres (h : IsColumnName column) (pattern : String) :
    (regex column pattern).tokens .postgres =
      [.word column.toList, .sign '~', .hole ⟨column, pattern⟩] := by
  rw [tokens, pieces, allTokens_cons, tokens_text_name h (by rfl)]
  rfl

theorem tokens_regex_h2 (h : IsColumnName column) (pattern : String) :
    (regex column pattern).tokens .h2 =
      [.word "REGEXP_LIKE".toList, .opening, .word column.toList, .sign ',',
        .hole ⟨column, pattern⟩, .closing] := by
  rw [tokens, pieces, allTokens_cons, tokens_text_around h (by rfl) (by rfl)]
  rfl

theorem tokens_like (h : IsColumnName column) (pattern : String) :
    (like column pattern).tokens d =
      [.word column.toList, .word "LIKE".toList, .hole ⟨column, pattern⟩] := by
  rw [tokens, pieces, allTokens_cons, tokens_text_name h (by rfl)]
  rfl

theorem tokens_likeAnyCase (h : IsColumnName column) (pattern : String) :
    (likeAnyCase column pattern).tokens d =
      [.word "LOWER".toList, .opening, .word column.toList, .closing, .word "LIKE".toList,
        .word "LOWER".toList, .opening, .hole ⟨column, pattern⟩, .closing] := by
  rw [tokens, pieces, allTokens_cons, tokens_text_around h (by rfl) (by rfl)]
  rfl

theorem tokens_search (h : IsColumnName column) (query : TextQuery) :
    (search column query).tokens d =
      .word column.toList :: .sign '@' :: .sign '@' :: allTokens (queryPieces column query) := by
  rw [tokens, pieces, allTokens_cons, tokens_text_name h (by rfl)]
  rfl

theorem allTokens_negated_absent (h : IsColumnName column) :
    allTokens ((absent column).negatedPieces d) =
      [.word column.toList, .word "IS".toList, .word "NOT".toList, .word "NULL".toList] := by
  rw [negatedPieces, allTokens_cons, tokens_text_name h (by rfl)]
  rfl

theorem allTokens_negated_equals (h : IsColumnName column) (value : String) :
    allTokens ((equals column value).negatedPieces d) =
      [.word column.toList, .sign '<', .sign '>', .hole ⟨column, value⟩] := by
  rw [negatedPieces, allTokens_cons, tokens_text_name h (by rfl)]
  rfl

theorem allTokens_negated_like (h : IsColumnName column) (pattern : String) :
    allTokens ((like column pattern).negatedPieces d) =
      [.word column.toList, .word "NOT".toList, .word "LIKE".toList,
        .hole ⟨column, pattern⟩] := by
  rw [negatedPieces, allTokens_cons, tokens_text_name h (by rfl)]
  rfl

theorem allTokens_slot (column text : String) :
    allTokens (TextQuery.slot column text) =
      [.hole ⟨column, text⟩, .sign ':', .sign ':', .word "tsquery".toList] := by
  rfl

theorem isStretch_queryPieces (column : String) (query : TextQuery) :
    IsStretch (allTokens (queryPieces column query)) := by
  have hslot : ∀ text, IsStretch (allTokens (TextQuery.slot column text)) := by
    intro text
    rw [allTokens_slot]
    exact .cons rfl (.cons rfl (.cons rfl (.cons (by decide) .nil)))
  unfold queryPieces
  split
  · exact hslot _
  · rw [allTokens_parenthesized, allTokens_separated, List.flatMap_singleton]
    exact ((hslot _).append (.append (.cons rfl (.cons rfl .nil)) (hslot _))).parenthesized

/-- A comparison is read as one. -/
theorem isOperand_tokens {c : Comparison} (h : IsColumnName c.column) :
    IsOperand (c.tokens d) (.atom (c.tokens d)) := by
  cases c with
  | absent column =>
    have hcol : IsColumnName column := h
    rw [tokens_absent hcol]
    exact hcol.isOperand (.cons (by decide) (.cons (by decide) .nil))
  | equals column value =>
    have hcol : IsColumnName column := h
    rw [tokens_equals hcol]
    exact hcol.isOperand (.cons rfl (.cons rfl .nil))
  | oneOf column first rest =>
    have hcol : IsColumnName column := h
    rw [tokens_oneOf hcol]
    refine hcol.isOperand (.cons (by decide) (IsStretch.parenthesized ?_))
    exact .cons rfl (.flatMap fun value _ => .cons rfl (.cons rfl .nil))
  | regex column pattern =>
    have hcol : IsColumnName column := h
    cases d with
    | postgres =>
      rw [tokens_regex_postgres hcol]
      exact hcol.isOperand (.cons rfl (.cons rfl .nil))
    | h2 =>
      have hinside : IsStretch [.word column.toList, .sign ',', .hole (Slot.mk column pattern)] :=
        .cons hcol.isPlain (.cons rfl (.cons rfl .nil))
      rw [tokens_regex_h2 hcol]
      exact .atom (by decide) (by decide) hinside.parenthesized
  | like column pattern =>
    have hcol : IsColumnName column := h
    rw [tokens_like hcol]
    exact hcol.isOperand (.cons (by decide) (.cons rfl .nil))
  | likeAnyCase column pattern =>
    have hcol : IsColumnName column := h
    have hcolumn : IsStretch [(Token.word column.toList : Token Slot)] := .cons hcol.isPlain .nil
    have hslot : IsStretch [.hole (Slot.mk column pattern)] := .cons rfl .nil
    rw [tokens_likeAnyCase hcol]
    exact .atom (by decide) (by decide) (hcolumn.parenthesized.append
      (.cons (by decide) (.cons (by decide) hslot.parenthesized)))
  | search column query =>
    have hcol : IsColumnName column := h
    rw [tokens_search hcol]
    exact hcol.isOperand (.cons rfl (.cons rfl (isStretch_queryPieces column query)))

end Comparison

/-! ## Tests and fragments -/

theorem allTokens_not_parenthesized (c : Comparison) :
    allTokens (.text "NOT " :: parenthesized (c.pieces d)) =
      .word "NOT".toList :: .opening :: (c.tokens d ++ [.closing]) := by
  rw [allTokens_cons, allTokens_parenthesized]
  rfl

namespace Test

/-- What a test is read as. -/
def tree (d : Dialect) (t : Test) : TokenTree Slot :=
  match t.negated, t.comparison with
  | true, .oneOf _ _ _ | true, .regex _ _ | true, .likeAnyCase _ _ | true, .search _ _ =>
    .not (.atom (t.comparison.tokens d))
  | _, _ => .atom (allTokens (t.pieces d))

theorem isOperand_negated {c : Comparison} (h : IsColumnName c.column) :
    IsOperand (allTokens (pieces d ⟨true, c⟩)) (tree d ⟨true, c⟩) := by
  have hnot : IsOperand (allTokens (.text "NOT " :: parenthesized (c.pieces d)))
      (.not (.atom (c.tokens d))) := by
    rw [allTokens_not_parenthesized]
    exact (Comparison.isOperand_tokens h).parenthesized.not
  unfold tree
  cases c with
  | absent column =>
    have hcol : IsColumnName column := h
    rw [pieces, if_pos rfl, Comparison.allTokens_negated_absent hcol]
    exact hcol.isOperand (.cons (by decide) (.cons (by decide) (.cons (by decide) .nil)))
  | equals column value =>
    have hcol : IsColumnName column := h
    rw [pieces, if_pos rfl, Comparison.allTokens_negated_equals hcol]
    exact hcol.isOperand (.cons (by decide) (.cons (by decide) (.cons rfl .nil)))
  | like column pattern =>
    have hcol : IsColumnName column := h
    rw [pieces, if_pos rfl, Comparison.allTokens_negated_like hcol]
    exact hcol.isOperand (.cons (by decide) (.cons (by decide) (.cons rfl .nil)))
  | oneOf | regex | likeAnyCase | search => exact hnot

/-- A test is read as one operand. -/
theorem isOperand_pieces {t : Test} (h : IsColumnName t.comparison.column) :
    IsOperand (allTokens (t.pieces d)) (t.tree d) := by
  obtain ⟨negated, c⟩ := t
  cases negated with
  | false => exact Comparison.isOperand_tokens h
  | true => exact isOperand_negated h

end Test

namespace Fragment

/-- What a fragment is read as: several tests are joined by `OR`. -/
def tree (d : Dialect) (f : Fragment) : TokenTree Slot :=
  .join .or (f.first.tree d) (f.rest.map (·.tree d))

theorem isOperand_pieces {f : Fragment} (h : f.columns ⊆ columnNames) :
    IsOperand (allTokens (f.pieces d)) (f.tree d) := by
  have htest : ∀ t ∈ f.tests, IsOperand (allTokens (t.pieces d)) (t.tree d) := fun t ht =>
    Test.isOperand_pieces (isColumnName_of_mem (h (List.mem_map_of_mem ht)))
  obtain ⟨first, rest⟩ := f
  rw [tests, List.forall_mem_cons] at htest
  cases rest with
  | nil => exact htest.1
  | cons second rest =>
    rw [pieces, allTokens_parenthesized, allTokens_separated, List.flatMap_map]
    exact htest.1.clause .or htest.2

end Fragment

/-! ## Filters -/

namespace Filter

/-- What a filter is read as. A clause with a single child is that child. -/
def tree (d : Dialect) : Filter → TokenTree Slot := Formula.fold (Fragment.tree d) Tree.join

@[simp] theorem tree_atom (f : Fragment) : tree d (.atom f) = f.tree d := rfl

@[simp] theorem tree_clause (op : Connective) (first : Filter) (rest : List Filter) :
    tree d (.clause op first rest) = .join op (tree d first) (rest.map (tree d)) := by
  unfold tree
  rw [Formula.fold_clause]

/-- The comparisons that a filter is read as are those of its fragments. -/
theorem mem_atoms_tree {f : Filter} {a : List (Token Slot)} :
    a ∈ (f.tree d).atoms ↔ ∃ g ∈ f.atoms, a ∈ (g.tree d).atoms := by
  induction f using Formula.induct_children with
  | atom g => simp
  | clause op first rest ih =>
    rw [tree_clause, Tree.mem_atoms_join]
    simp only [Formula.mem_atoms_clause]
    constructor
    · rintro ⟨f, hf, ha⟩
      obtain ⟨g, hg, hag⟩ := (ih f hf).1 ha
      exact ⟨g, ⟨f, hf, hg⟩, hag⟩
    · rintro ⟨g, ⟨f, hf, hg⟩, hag⟩
      exact ⟨f, hf, (ih f hf).2 ⟨g, hg, hag⟩⟩

/-- Wherever the text of a filter stands, it is read as one operand. -/
theorem isOperand_pieces {f : Filter} (h : ∀ g ∈ f.atoms, g.columns ⊆ columnNames) :
    IsOperand (allTokens (f.pieces d)) (f.tree d) := by
  induction f using Formula.induct_children with
  | atom g => exact Fragment.isOperand_pieces (h g (by simp))
  | clause op first rest ih =>
    rw [Formula.forall_mem_atoms_clause] at h
    have heach : ∀ f ∈ first :: rest, IsOperand (allTokens (pieces d f)) (tree d f) :=
      fun f hf => ih f hf (h f hf)
    rw [List.forall_mem_cons] at heach
    have hjoiner : (lex op.joiner.toList : List (Token Slot)) = [.word op.name.toList] := by
      cases op <;> rfl
    rw [pieces_clause, allTokens_parenthesized, allTokens_separated, List.flatMap_map, hjoiner,
      tree_clause]
    exact heach.1.clause op heach.2

end Filter

end SearchFilter
