import SearchFilter.Compile
import SearchFilter.Proofs.Condition.Outline
import SearchFilter.Proofs.Formula.Sift

/-!
# Filters without their values

What is left of fragments and filters when the values in them do not count: the columns, the
comparisons, and how many values there are. Their text has nothing more in it.

Main statement: `Expression.map_outline_pieces_eq`.
-/

namespace SearchFilter

open Piece

variable {d : Dialect}

/-- A query without its texts. -/
def TextQuery.outline (q : TextQuery) : TextQuery := ⟨⟨"", false⟩, q.phrase?.map fun _ => []⟩

theorem TextQuery.outline_eq (q : TextQuery) :
    q.outline = ⟨⟨"", false⟩, if q.phrase?.isSome then some [] else none⟩ := by
  unfold outline
  cases q.phrase? <;> rfl

namespace Comparison

/-- A comparison without its values. -/
def outline : Comparison → Comparison
  | absent column => absent column
  | equals column _ => equals column ""
  | oneOf column _ rest => oneOf column "" (rest.map fun _ => "")
  | regex column _ => regex column ""
  | like column _ => like column ""
  | likeAnyCase column _ => likeAnyCase column ""
  | search column query => search column query.outline

/-- In the outline of a query it only counts whether there is a phrase. -/
theorem map_outline_queryPieces (column : String) (query : TextQuery) :
    (queryPieces column query).map Piece.outline =
      if query.phrase?.isSome then
        parenthesized (separated " || " (TextQuery.slot column "") [TextQuery.slot column ""])
      else TextQuery.slot column "" := by
  unfold queryPieces TextQuery.phraseText?
  cases query.phrase? with
  | none => rfl
  | some phrase => rfl

theorem map_outline_queryPieces_outline (column : String) (query : TextQuery) :
    (queryPieces column query.outline).map Piece.outline =
      (queryPieces column query).map Piece.outline := by
  rw [map_outline_queryPieces, map_outline_queryPieces, TextQuery.outline, Option.isSome_map]

theorem map_outline_pieces (c : Comparison) :
    (c.outline.pieces d).map Piece.outline = (c.pieces d).map Piece.outline := by
  cases c with
  | absent | equals | like | likeAnyCase => rfl
  | oneOf column first rest =>
    rw [outline, pieces, pieces, List.map_cons, List.map_cons, map_outline_parenthesized,
      map_outline_parenthesized, map_outline_separated, map_outline_separated, List.map_map,
      List.map_map, List.map_map]
    rfl
  | regex => cases d <;> rfl
  | search column query => exact congrArg (_ :: ·) (map_outline_queryPieces_outline column query)

theorem map_outline_negatedPieces (c : Comparison) :
    (c.outline.negatedPieces d).map Piece.outline = (c.negatedPieces d).map Piece.outline := by
  have hnot : (text "NOT " :: parenthesized (c.outline.pieces d)).map Piece.outline =
      (text "NOT " :: parenthesized (c.pieces d)).map Piece.outline := by
    rw [List.map_cons, List.map_cons, map_outline_parenthesized, map_outline_parenthesized,
      map_outline_pieces]
  cases c with
  | absent | equals | like => rfl
  | oneOf | regex | likeAnyCase | search => exact hnot

end Comparison

/-- A test without its values. -/
def Test.outline (t : Test) : Test := ⟨t.negated, t.comparison.outline⟩

theorem Test.map_outline_pieces (t : Test) :
    (t.outline.pieces d).map Piece.outline = (t.pieces d).map Piece.outline := by
  unfold pieces outline
  split
  · exact t.comparison.map_outline_negatedPieces
  · exact t.comparison.map_outline_pieces

namespace Fragment

/-- A fragment without its values. -/
def outline (f : Fragment) : Fragment := ⟨f.first.outline, f.rest.map Test.outline⟩

theorem map_outline_pieces_cons (first second : Test) (rest : List Test) :
    (pieces d ⟨first, second :: rest⟩).map Piece.outline =
      parenthesized (separated " OR " ((first.pieces d).map Piece.outline)
        ((second :: rest).map fun t => (t.pieces d).map Piece.outline)) := by
  rw [pieces, map_outline_parenthesized, map_outline_separated, List.map_map]
  rfl

theorem map_outline_pieces (f : Fragment) :
    (f.outline.pieces d).map Piece.outline = (f.pieces d).map Piece.outline := by
  obtain ⟨first, rest⟩ := f
  cases rest with
  | nil => exact first.map_outline_pieces
  | cons second rest =>
    have htests : ((second :: rest).map Test.outline).map
          (fun t => (t.pieces d).map Piece.outline) =
        (second :: rest).map fun t => (t.pieces d).map Piece.outline := by
      rw [List.map_map]
      exact List.map_congr_left fun t _ => t.map_outline_pieces
    rw [map_outline_pieces_cons, ← htests, ← first.map_outline_pieces]
    exact map_outline_pieces_cons first.outline second.outline (rest.map Test.outline)

end Fragment

theorem Filter.map_outline_pieces (f : Filter) :
    (Filter.pieces d (f.map Fragment.outline)).map Piece.outline =
      (Filter.pieces d f).map Piece.outline := by
  induction f using Formula.induct_children with
  | atom g => exact g.map_outline_pieces
  | clause op first rest ih =>
    rw [List.forall_mem_cons] at ih
    rw [Formula.map_clause, pieces_clause, pieces_clause, map_outline_parenthesized,
      map_outline_parenthesized, map_outline_separated, map_outline_separated, ih.1, List.map_map,
      List.map_map, List.map_map]
    congr 2
    exact List.map_congr_left ih.2

/-! ## Predicates and expressions -/

/-- What becomes of a predicate, but for the values. -/
def Outcome.outline : Outcome → Outcome
  | dropped => dropped
  | rejected i => rejected i
  | rendered f => rendered f.outline

namespace Outcome

theorem issue?_outline (o : Outcome) : o.outline.issue? = o.issue? := by
  cases o <;> rfl

theorem fragment?_outline (o : Outcome) :
    o.outline.fragment? = o.fragment?.map Fragment.outline := by
  cases o <;> rfl

/-- The outcome of a predicate whose terms have a fragment, or a problem. -/
def ofExcept (field : Field) (operand : Operand) : Except Problem Fragment → Outcome
  | .ok f => rendered f
  | .error problem => rejected ⟨field, operand, problem⟩

end Outcome

theorem Predicate.outline_outcome {p : Predicate} {c : Column} {first : Scalar}
    {rest : List Scalar} (hc : d.column? p.field = some c) (he : p.effective = first :: rest) :
    (p.outcome d).outline = .ofExcept p.field p.operand
      ((c.fragment d p.operand first rest).map Fragment.outline) := by
  unfold outcome
  rw [hc, he]
  dsimp only
  cases c.fragment d p.operand first rest <;> rfl

namespace Expression

variable {γ : Type} {t : Predicate → γ} {e e' : Expression}

/-! Here `t p` tells whatever decides what becomes of a predicate `p`, but for the values. -/

theorem issues_eq_of_map_eq
    (ht : Function.FactorsThrough (fun p : Predicate => (p.outcome d).outline) t)
    (h : e.map t = e'.map t) : e.issues d = e'.issues d := by
  have hissue : Function.FactorsThrough (fun p : Predicate => (p.outcome d).issue?) t :=
    fun p p' hp => calc
      (p.outcome d).issue? = (p.outcome d).outline.issue? := (Outcome.issue?_outline _).symm
      _ = (p'.outcome d).outline.issue? := congrArg Outcome.issue? (ht hp)
      _ = (p'.outcome d).issue? := Outcome.issue?_outline _
  have hatoms : e.atoms.map t = e'.atoms.map t := by
    rw [← Formula.atoms_map, h, Formula.atoms_map]
  obtain ⟨k, hk⟩ := (Function.factorsThrough_iff _).1 hissue
  unfold issues
  rw [hk, ← List.filterMap_map, ← List.filterMap_map, hatoms]

theorem map_outline_filter? (e : Expression) :
    (e.filter? d).map (Formula.map Fragment.outline) =
      e.prune fun p => (p.outcome d).outline.fragment? := by
  unfold filter?
  rw [Formula.map_prune]
  congr 1
  funext p
  exact (Outcome.fragment?_outline _).symm

theorem map_outline_pieces_eq
    (ht : Function.FactorsThrough (fun p : Predicate => (p.outcome d).outline) t)
    (h : e.map t = e'.map t) :
    (e.pieces d).map Piece.outline = (e'.pieces d).map Piece.outline := by
  have hfilter : (e.filter? d).map (Formula.map Fragment.outline) =
      (e'.filter? d).map (Formula.map Fragment.outline) := by
    rw [map_outline_filter?, map_outline_filter?]
    refine Formula.fold_eq_of_map_eq (fun p p' hp => ?_) _ h
    exact congrArg (fun o : Outcome => o.fragment?.map Formula.atom) (ht hp)
  have hpieces : ∀ e : Expression, (e.pieces d).map Piece.outline =
      ((e.filter? d).map (Formula.map Fragment.outline)).elim []
        fun f => (Filter.pieces d f).map Piece.outline := by
    intro e
    unfold pieces
    cases e.filter? d with
    | none => rfl
    | some f => exact f.map_outline_pieces.symm
  rw [hpieces, hpieces, hfilter]

end Expression

end SearchFilter
