import SearchFilter.Condition.Piece
import SearchFilter.Proofs.Sql.Operand

/-!
# Slots

What a filter's pieces say before placeholders are chosen: the tokens of its text, with the values
and their columns where placeholders will stand.
-/

namespace SearchFilter

/-- A value and the column that it is compared with. -/
structure Slot where
  column : String
  value : String
  deriving DecidableEq, Repr

namespace Piece

def slot? : Piece → Option Slot
  | text _ => none
  | slot column value => some ⟨column, value⟩

/-- The tokens of a piece. -/
def tokens : Piece → List (Sql.Token Slot)
  | text s => Sql.lex s.toList
  | slot column value => [.hole ⟨column, value⟩]

theorem holes_tokens (p : Piece) : Sql.holes p.tokens = p.slot?.toList := by
  cases p with
  | text s => exact Sql.holes_lex s.toList
  | slot column value => rfl

/-- The tokens of pieces, one after the other. -/
def allTokens (ps : List Piece) : List (Sql.Token Slot) := ps.flatMap tokens

/-- The slots of pieces, in order. -/
def slots (ps : List Piece) : List Slot := ps.filterMap slot?

@[simp] theorem allTokens_cons (p : Piece) (ps : List Piece) :
    allTokens (p :: ps) = p.tokens ++ allTokens ps := rfl

@[simp] theorem allTokens_append (ps qs : List Piece) :
    allTokens (ps ++ qs) = allTokens ps ++ allTokens qs :=
  List.flatMap_append

theorem holes_allTokens (ps : List Piece) : Sql.holes (allTokens ps) = slots ps := by
  induction ps with
  | nil => rfl
  | cons p ps ih =>
    rw [allTokens_cons, Sql.holes_append, holes_tokens, ih]
    cases p <;> rfl

theorem allTokens_separated (separator : String) (first : List Piece) (rest : List (List Piece)) :
    allTokens (separated separator first rest) =
      allTokens first ++ rest.flatMap fun ps => Sql.lex separator.toList ++ allTokens ps := by
  unfold separated allTokens
  rw [List.flatMap_append, List.flatMap_assoc]
  rfl

theorem slots_separated (separator : String) (first : List Piece) (rest : List (List Piece)) :
    slots (separated separator first rest) = slots first ++ rest.flatMap slots := by
  unfold separated slots
  rw [List.filterMap_append, List.filterMap_flatMap]
  rfl

theorem allTokens_parenthesized (ps : List Piece) :
    allTokens (parenthesized ps) = .opening :: (allTokens ps ++ [.closing]) := by
  unfold parenthesized
  rw [List.cons_append, allTokens_cons, allTokens_append]
  rfl

theorem slots_parenthesized (ps : List Piece) : slots (parenthesized ps) = slots ps := by
  unfold parenthesized slots
  rw [List.filterMap_append, List.filterMap_cons_none rfl]
  exact List.append_nil _

end Piece

end SearchFilter
