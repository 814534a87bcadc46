import Mathlib.Data.List.Basic
import SearchFilter.Condition

/-!
# Pieces without their values

Filling slots is a matter of their columns alone: which placeholder goes into a slot, and so the
whole text and the names of the parameters, does not depend on the values that are bound.

Main statement: `Condition.sqlText_eq_of_outline`.
-/

namespace SearchFilter

open Piece

namespace Piece

/-- A piece without the value in its slot. -/
def outline : Piece → Piece
  | text s => text s
  | slot column _ => slot column ""

theorem map_outline_separated (separator : String) (first : List Piece) (rest : List (List Piece)) :
    (separated separator first rest).map outline =
      separated separator (first.map outline) (rest.map (List.map outline)) := by
  unfold separated
  rw [List.map_append, List.map_flatMap, List.flatMap_map]
  rfl

theorem map_outline_parenthesized (ps : List Piece) :
    (parenthesized ps).map outline = parenthesized (ps.map outline) := by
  unfold parenthesized
  rw [List.map_append]
  rfl

end Piece

theorem Parameters.names_set (p : Parameters) (name value : String) :
    (p.set name value).names = p.names.filter (· ≠ name) ++ [name] := by
  unfold names set
  rw [List.map_append, List.filter_map]
  rfl

namespace Bindings

/-- Two states with the same names and the same number to try next. -/
structure Alike (b b' : Bindings) : Prop where
  counter_eq : b.counter = b'.counter
  names_eq : b.parameters.names = b'.parameters.names

namespace Alike

variable {b b' : Bindings}

theorem freshNumber_eq (h : b.Alike b') (column : String) :
    b.freshNumber column = b'.freshNumber column := by
  unfold freshNumber
  rw [h.names_eq, h.counter_eq]

theorem freshName_eq (h : b.Alike b') (column : String) :
    b.freshName column = b'.freshName column := by
  unfold freshName
  rw [h.freshNumber_eq]

/-- Different values may be bound. -/
theorem bind (h : b.Alike b') (column value value' : String) :
    (b.bind column value).Alike (b'.bind column value') where
  counter_eq := congrArg (· + 1) (h.freshNumber_eq column)
  names_eq := by
    unfold Bindings.bind
    rw [Parameters.names_set, Parameters.names_set, h.names_eq, h.freshName_eq]

theorem fill (h : b.Alike b') (ns : String) {ps qs : List Piece}
    (hout : ps.map outline = qs.map outline) :
    (b.fill ns ps).1 = (b'.fill ns qs).1 ∧ (b.fill ns ps).2.Alike (b'.fill ns qs).2 := by
  induction ps generalizing b b' qs with
  | nil =>
    rw [List.map_nil, eq_comm, List.map_eq_nil_iff] at hout
    rw [hout]
    exact ⟨rfl, h⟩
  | cons p ps ih =>
    obtain ⟨q, qs, rfl, hq, hqs⟩ := List.map_eq_cons_iff.1 hout.symm
    cases p with
    | text s =>
      cases q with
      | slot column value => cases hq
      | text t =>
        cases hq
        obtain ⟨htexts, hlast⟩ := ih h hqs.symm
        exact ⟨congrArg (s :: ·) htexts, hlast⟩
    | slot column value =>
      cases q with
      | text t => cases hq
      | slot column' value' =>
        cases hq
        obtain ⟨htexts, hlast⟩ := ih (h.bind column value value') hqs.symm
        have hplaceholder := congrArg (placeholder ns) (h.freshName_eq column)
        exact ⟨congrArg₂ List.cons hplaceholder htexts, hlast⟩

end Alike

end Bindings

namespace Condition

variable {ps qs : List Piece}

theorem sqlText_eq_of_outline (ns : String) (h : ps.map outline = qs.map outline) :
    (ofPieces ns ps).sqlText = (ofPieces ns qs).sqlText :=
  congrArg String.join (Bindings.Alike.fill (b := .start) ⟨rfl, rfl⟩ ns h).1

theorem names_eq_of_outline (ns : String) (h : ps.map outline = qs.map outline) :
    (ofPieces ns ps).parameters.names = (ofPieces ns qs).parameters.names :=
  (Bindings.Alike.fill (b := .start) ⟨rfl, rfl⟩ ns h).2.names_eq

end Condition

end SearchFilter
