import Mathlib.Data.List.Nodup
import SearchFilter.Condition
import SearchFilter.Proofs.Columns
import SearchFilter.Proofs.Condition.Slot

/-!
# Filling slots

The placeholders of a condition are named by the columns of its slots and numbered from zero: since
no column is another one followed by digits, the first number that is tried is always free.

Main statements: `entries_ofPieces`, the values of slots are bound in order, and
`sqlText_ofPieces`, the text refers to them in the same order.
-/

namespace SearchFilter

open Piece

theorem IsColumnName.baseName_eq {column : String} (h : IsColumnName column) :
    Bindings.baseName column = column := by
  unfold Bindings.baseName
  rw [List.filter_eq_self.2, String.ofList_toList]
  intro c hc
  have hrest := h.rest c hc
  refine decide_eq_true ?_
  rintro rfl
  exact absurd hrest (by decide)

namespace Slot

/-- What is bound for slots: the `k`-th value goes by its column and `k`. -/
def entries (l : List Slot) : List (String × String) :=
  l.mapIdx fun k s => (numbered s.column k, s.value)

/-- The names of the placeholders of slots. -/
def names (l : List Slot) : List String := l.mapIdx fun k s => numbered s.column k

theorem map_fst_entries (l : List Slot) : (entries l).map (·.1) = names l := by
  unfold entries names
  refine List.ext_getElem? fun k => ?_
  rw [List.getElem?_map, List.getElem?_mapIdx, List.getElem?_mapIdx, Option.map_map]
  rfl

theorem entries_append_singleton (l : List Slot) (s : Slot) :
    entries (l ++ [s]) = entries l ++ [(numbered s.column l.length, s.value)] := by
  unfold entries
  rw [List.mapIdx_append, List.mapIdx_singleton, Nat.zero_add]

theorem names_nodup {l : List Slot} (h : ∀ s ∈ l, s.column ∈ columnNames) :
    (names l).Nodup := by
  unfold names
  rw [List.nodup_iff_injective_getElem]
  intro i j hij
  simp only [List.getElem_mapIdx] at hij
  exact Fin.ext (numbered_inj_of_mem (h _ (List.getElem_mem _)) (h _ (List.getElem_mem _)) hij).2

end Slot

namespace Bindings

/-- Exactly the values of the slots are bound, and the next number is theirs. -/
structure Holds (b : Bindings) (l : List Slot) : Prop where
  columns : ∀ s ∈ l, s.column ∈ columnNames
  counter : b.counter = l.length
  entries : b.parameters.entries = Slot.entries l

theorem holds_start : start.Holds [] := ⟨by simp, rfl, rfl⟩

namespace Holds

variable {b : Bindings} {l : List Slot} {column : String}

theorem names_eq (h : b.Holds l) : b.parameters.names = Slot.names l := by
  unfold Parameters.names
  rw [h.entries, Slot.map_fst_entries]

theorem not_mem_names (h : b.Holds l) (hc : column ∈ columnNames) :
    numbered column l.length ∉ b.parameters.names := by
  rw [h.names_eq, Slot.names, List.mem_mapIdx]
  rintro ⟨k, hk, heq⟩
  have := (numbered_inj_of_mem (h.columns _ (List.getElem_mem hk)) hc heq).2
  omega

theorem freshNumber_eq (h : b.Holds l) (hc : column ∈ columnNames) :
    b.freshNumber column = l.length := by
  have hfree := h.not_mem_names hc
  unfold freshNumber
  rw [(isColumnName_of_mem hc).baseName_eq, freeNumber, h.counter, dif_neg hfree]

theorem freshName_eq (h : b.Holds l) (hc : column ∈ columnNames) :
    b.freshName column = numbered column l.length := by
  unfold freshName
  rw [h.freshNumber_eq hc, (isColumnName_of_mem hc).baseName_eq]

/-- To bind the value of one more slot. -/
theorem bind (h : b.Holds l) (hc : column ∈ columnNames) (value : String) :
    (b.bind column value).Holds (l ++ [⟨column, value⟩]) where
  columns s hs := by
    rw [List.mem_append, List.mem_singleton] at hs
    rcases hs with hs | rfl
    · exact h.columns s hs
    · exact hc
  counter := by
    rw [Bindings.bind, h.freshNumber_eq hc, List.length_append, List.length_singleton]
  entries := by
    have hkeep : b.parameters.entries.filter (·.1 ≠ numbered column l.length) =
        b.parameters.entries := by
      refine List.filter_eq_self.2 fun e he => decide_eq_true fun heq => ?_
      exact h.not_mem_names hc (heq ▸ List.mem_map_of_mem he)
    have hset : (b.bind column value).parameters.entries =
        b.parameters.entries.filter (·.1 ≠ b.freshName column) ++ [(b.freshName column, value)] :=
      rfl
    rw [hset, h.freshName_eq hc, hkeep, h.entries, Slot.entries_append_singleton]

end Holds

end Bindings

namespace Piece

/-- The texts of pieces, with placeholders numbered from `k` on. -/
def written (ns : String) : ℕ → List Piece → List String
  | _, [] => []
  | k, .text s :: rest => s :: written ns k rest
  | k, .slot column _ :: rest => placeholder ns (numbered column k) :: written ns (k + 1) rest

end Piece

/-- The text that is written and the values that are bound, after those of other slots. -/
theorem Bindings.Holds.fill {b : Bindings} {l : List Slot} (h : b.Holds l) (ns : String)
    {ps : List Piece} (hps : ∀ s ∈ slots ps, s.column ∈ columnNames) :
    (b.fill ns ps).1 = written ns l.length ps ∧ (b.fill ns ps).2.Holds (l ++ slots ps) := by
  induction ps generalizing b l with
  | nil => exact ⟨rfl, by rwa [slots, List.filterMap_nil, List.append_nil]⟩
  | cons p ps ih =>
    cases p with
    | text s =>
      obtain ⟨htexts, hlast⟩ := ih h hps
      exact ⟨congrArg (s :: ·) htexts, hlast⟩
    | slot column value =>
      have hslots : slots (.slot column value :: ps) = ⟨column, value⟩ :: slots ps := rfl
      rw [hslots, List.forall_mem_cons] at hps
      obtain ⟨htexts, hlast⟩ := ih (h.bind hps.1 value) hps.2
      rw [List.length_append, List.length_singleton] at htexts
      rw [hslots, Bindings.fill, h.freshName_eq hps.1, List.append_cons]
      exact ⟨congrArg (_ :: ·) htexts, hlast⟩

namespace Condition

variable {ps : List Piece}

theorem sqlText_ofPieces (ns : String) (h : ∀ s ∈ slots ps, s.column ∈ columnNames) :
    (ofPieces ns ps).sqlText = String.join (written ns 0 ps) :=
  congrArg String.join (Bindings.holds_start.fill ns h).1

theorem entries_ofPieces (ns : String) (h : ∀ s ∈ slots ps, s.column ∈ columnNames) :
    (ofPieces ns ps).parameters.entries = Slot.entries (slots ps) :=
  (Bindings.holds_start.fill ns h).2.entries

end Condition

end SearchFilter
