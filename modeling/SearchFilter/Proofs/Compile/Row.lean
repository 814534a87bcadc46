import SearchFilter.Proofs.Compile.Admission
import SearchFilter.Proofs.Compile.Text

/-!
# Rows

What a row says of the comparisons in a condition. Whether a column is equal to a value, or to one
of several, is told by the value that the row has there; a column without a value tells nothing. Of
all other comparisons a row may say anything.

Main statements: `Row.truth_equals` and `Row.truth_oneOf`, for comparisons as they are written.
-/

namespace SearchFilter

open Sql

/-- The values of a row by column. Where there is none, the column is `NULL`. -/
abbrev Row := String → Option String

namespace Row

/-- Whether a column has one of some values. -/
def among (row : Row) (column : String) (values : List String) : Truth :=
  match row column with
  | none => .unknown
  | some value => if value ∈ values then .yes else .no

/-- The truth values of comparisons in a row. Those that are neither an equality nor a membership
have the truth values `other`. -/
def truth (row : Row) (other : List (Token (Option Slot)) → Truth) :
    List (Token (Option Slot)) → Truth
  | [.word column, .sign '=', .hole (some s)] => row.among (String.ofList column) [s.value]
  | .word column :: .word ['I', 'N'] :: .opening :: listed =>
    row.among (String.ofList column) ((holes listed).filterMap (Option.map Slot.value))
  | a => other a

theorem among_eq_yes_iff {row : Row} {column : String} {values : List String} :
    row.among column values = .yes ↔ ∃ value ∈ values, row column = some value := by
  unfold among
  cases row column with
  | none => simp
  | some value => simp

variable {d : Dialect} (row : Row) (other : List (Token (Option Slot)) → Truth) {column : String}

theorem truth_equals (h : IsColumnName column) (value : String) :
    row.truth other (((Comparison.equals column value).tokens d).map (Token.map some)) =
      row.among column [value] := by
  rw [Comparison.tokens_equals h]
  exact congrArg (row.among · [value]) String.ofList_toList

theorem truth_oneOf (h : IsColumnName column) (first : String) (rest : List String) :
    row.truth other (((Comparison.oneOf column first rest).tokens d).map (Token.map some)) =
      row.among column (first :: rest) := by
  obtain ⟨listed, htokens⟩ : ∃ listed, (Comparison.oneOf column first rest).tokens d =
      .word column.toList :: .word "IN".toList :: .opening :: listed :=
    ⟨_, Comparison.tokens_oneOf h first rest⟩
  have hlisted : holes listed = (first :: rest).map (Slot.mk column) := by
    have hholes : holes ((Comparison.oneOf column first rest).tokens d) = holes listed := by
      rw [htokens]
      rfl
    rw [← hholes, Comparison.tokens, Piece.holes_allTokens, Comparison.slots_pieces]
    rfl
  have hvalues : (holes (listed.map (Token.map some))).filterMap (Option.map Slot.value) =
      first :: rest := by
    rw [holes_map, hlisted, List.map_map, List.filterMap_map]
    exact List.filterMap_some
  rw [htokens, ← hvalues]
  exact congrArg (row.among · _) String.ofList_toList

end Row

/-! ## Predicates that are rendered as comparisons -/

theorem Test.tree_comparison (d : Dialect) (c : Comparison) :
    Test.tree d ⟨false, c⟩ = .atom (c.tokens d) := by
  cases c <;> rfl

/-- What a predicate is read as when it is rendered as comparisons of which one has to hold. -/
theorem Predicate.tree_of_comparisons {d : Dialect} {p : Predicate} {c : Comparison}
    {cs : List Comparison} (h : p.outcome d = .rendered ⟨⟨false, c⟩, cs.map (⟨false, ·⟩)⟩) :
    p.tree d = .join .or (.atom (c.tokens d)) (cs.map fun c => .atom (c.tokens d)) := by
  rw [tree, h]
  dsimp only
  rw [Fragment.tree, Test.tree_comparison, List.map_map]
  exact congrArg _ (List.map_congr_left fun c _ => Test.tree_comparison d c)

theorem Predicate.tree_of_single {d : Dialect} {p : Predicate} {c : Comparison}
    (h : p.outcome d = .rendered (.single false c)) : p.tree d = .atom (c.tokens d) := by
  have hlist : p.outcome d = .rendered ⟨⟨false, c⟩, [].map (⟨false, ·⟩)⟩ := h
  exact tree_of_comparisons hlist

namespace Expression

variable {d : Dialect} {p : Predicate} {c : Comparison}

/-- The truth value of a predicate that is rendered as comparisons is the greatest of theirs. -/
theorem predicateTruth_of_comparisons {cs : List Comparison}
    (h : p.outcome d = .rendered ⟨⟨false, c⟩, cs.map (⟨false, ·⟩)⟩)
    (w : List (Token (Option Slot)) → Truth) :
    predicateTruth d w p = Connective.or.combine (w ((c.tokens d).map (Token.map some)))
      (cs.map fun c => w ((c.tokens d).map (Token.map some))) := by
  rw [predicateTruth, Predicate.tree_of_comparisons h, TokenTree.map, Tree.map_join,
    Tree.value_join, List.map_map, List.map_map]
  rfl

/-- The truth value of a predicate that is rendered as one comparison is that of the comparison. -/
theorem predicateTruth_of_single (h : p.outcome d = .rendered (.single false c))
    (w : List (Token (Option Slot)) → Truth) :
    predicateTruth d w p = w ((c.tokens d).map (Token.map some)) := by
  rw [predicateTruth, Predicate.tree_of_single h]
  rfl

/-- A predicate that is rendered as one comparison has a condition, which says just that. -/
theorem compile_of_single {ns : String} (hns : isIdentifier ns.toList = true)
    (h : p.outcome d = .rendered (.single false c)) :
    ∃ own, compile d ns (.atom p) = .ok own ∧
      own.reading = some (.atom ((c.tokens d).map (Token.map some))) ∧
      ∀ w, own.truth? w = some (w ((c.tokens d).map (Token.map some))) := by
  obtain ⟨own, hown, hreading⟩ := reading_of_rendered hns h
  refine ⟨own, hown, ?_, fun w => ?_⟩
  · rw [hreading, Predicate.tree_of_single h]
    rfl
  · obtain ⟨own', hown', htruth⟩ := truth?_of_rendered (w := w) hns h
    obtain rfl := Except.ok.inj (hown.symm.trans hown')
    rw [htruth, predicateTruth_of_single h]

end Expression

end SearchFilter
