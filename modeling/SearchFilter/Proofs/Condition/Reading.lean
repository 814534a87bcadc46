import Mathlib.Data.List.Nodup
import SearchFilter.Proofs.Condition.Tidy

/-!
# What a condition says

A condition's text is read as a tree of comparisons, and its placeholders stand for the values that
are bound to them. In what is then left, the numbers of placeholders have no part.

Main statement: `reading_ofPieces`, a condition made of tidy pieces says what the tokens of the
pieces say.
-/

namespace SearchFilter

open Piece Sql

theorem Parameters.get?_of_mem {p : Parameters} {name value : String}
    (h : (name, value) ∈ p.entries) : p.get? name = some value := by
  unfold get?
  cases hfind : p.entries.find? (·.1 == name) with
  | none =>
    have hne := List.find?_eq_none.1 hfind _ h
    exact absurd BEq.rfl hne
  | some e =>
    have hname : e.1 = name := by simpa using List.find?_some hfind
    have he := List.inj_on_of_nodup_map p.nodup (List.mem_of_find?_eq_some hfind) h hname
    rw [he, Option.map_some]

theorem Parameters.mem_names_of_get? {p : Parameters} {name value : String}
    (h : p.get? name = some value) : name ∈ p.names := by
  unfold get? at h
  obtain ⟨e, he, -⟩ := Option.map_eq_some_iff.1 h
  have hname : e.1 = name := by simpa using List.find?_some he
  exact hname ▸ List.mem_map_of_mem (List.mem_of_find?_eq_some he)

namespace Sql

theorem mem_holes {α : Type} {a : α} {ts : List (Token α)} : a ∈ holes ts ↔ .hole a ∈ ts := by
  unfold holes
  rw [List.mem_filterMap]
  constructor
  · rintro ⟨t, ht, ha⟩
    cases t with
    | hole b =>
      cases ha
      exact ht
    | word | sign | opening | closing => cases ha
  · exact fun h => ⟨_, h, rfl⟩

theorem map_congr_of_holes {α β : Type} {f g : α → β} {ts : List (Token α)}
    (h : ∀ a ∈ holes ts, f a = g a) : ts.map (Token.map f) = ts.map (Token.map g) := by
  refine List.map_congr_left fun t ht => ?_
  cases t with
  | hole a => exact congrArg Token.hole (h a (mem_holes.2 ht))
  | word | sign | opening | closing => rfl

end Sql

namespace Condition

/-- What a placeholder of a condition stands for: the column that it is named by, and the value
that is bound to it. -/
def slot? (c : Condition) (m : Mark) : Option Slot :=
  match m.column?, c.parameters.get? (String.ofList m.name) with
  | some column, some value => if m.ns = c.ns.toList then some ⟨column, value⟩ else none
  | _, _ => none

theorem slot?_eq_some {c : Condition} {m : Mark} {s : Slot} (h : c.slot? m = some s) :
    m.column? = some s.column ∧ c.parameters.get? (String.ofList m.name) = some s.value := by
  unfold slot? at h
  split at h
  · next column value hcolumn hvalue =>
    split at h
    · cases h
      exact ⟨hcolumn, hvalue⟩
    · cases h
  · cases h

/-- What a condition says, with the values of its placeholders. -/
def reading (c : Condition) : Option (TokenTree (Option Slot)) :=
  (Sql.read c.sqlText).map (TokenTree.map c.slot?)

/-- The truth value of a condition whose comparisons have the values `w`, if its text can be read.
A condition that says nothing is met by every row. -/
def truth? (w : List (Token (Option Slot)) → Truth) (c : Condition) : Option Truth :=
  if c.isEmpty then some .yes else c.reading.map (Tree.value w)

/-- Trees of two conditions that are the same up to the numbers of placeholders: where one has a
placeholder so has the other, named by the same column and with the same value. -/
def Agree (c : Condition) (t : TokenTree Mark) (c' : Condition) (t' : TokenTree Mark) : Prop :=
  ∃ u : TokenTree Slot, TokenTree.map c.slot? t = TokenTree.map some u ∧
    TokenTree.map c'.slot? t' = TokenTree.map some u

theorem reading_eq_some_iff {c : Condition} {u : TokenTree (Option Slot)} :
    c.reading = some u ↔ ∃ t, Sql.read c.sqlText = some t ∧ TokenTree.map c.slot? t = u := by
  unfold reading
  rw [Option.map_eq_some_iff]

variable {ns : String} {ps : List Piece}

theorem mem_entries {l : List Slot} {s : Slot} {k : ℕ} (h : (s, k) ∈ l.zipIdx) :
    (numbered s.column k, s.value) ∈ Slot.entries l := by
  rw [List.mk_mem_zipIdx_iff_getElem?] at h
  rw [Slot.entries, List.mem_iff_getElem?]
  exact ⟨k, by rw [List.getElem?_mapIdx, h, Option.map_some]⟩

theorem slot?_mark (hcols : ∀ s ∈ slots ps, s.column ∈ columnNames) {s : Slot} {k : ℕ}
    (h : (s, k) ∈ (slots ps).zipIdx) : (ofPieces ns ps).slot? (Slot.mark ns (s, k)) = some s := by
  have hmem := hcols s (List.fst_mem_of_mem_zipIdx h)
  have hget := Parameters.get?_of_mem (entries_ofPieces ns hcols ▸ mem_entries h)
  unfold slot?
  rw [Slot.mark, Mark.column?_numbered hmem, String.ofList_toList, hget]
  exact if_pos rfl

/-- The tokens of a text, each placeholder with its column and its value. -/
theorem tokens_map_slot? (hns : isIdentifier ns.toList = true) (hps : Tidy ps)
    (hcols : ∀ s ∈ slots ps, s.column ∈ columnNames) :
    (Sql.tokens (ofPieces ns ps).sqlText).map (Token.map (ofPieces ns ps).slot?) =
      (allTokens ps).map (Token.map some) := by
  have hslots : holes (numberFrom 0 (allTokens ps)) = (slots ps).zipIdx := by
    rw [holes_numberFrom, holes_allTokens]
  have hslot : ∀ s ∈ holes (numberFrom 0 (allTokens ps)),
      (ofPieces ns ps).slot? (Slot.mark ns s) = some s.1 := fun s hs =>
    slot?_mark hcols (hslots ▸ hs)
  calc (Sql.tokens (ofPieces ns ps).sqlText).map (Token.map (ofPieces ns ps).slot?)
      = (numberFrom 0 (allTokens ps)).map
          (Token.map fun s => (ofPieces ns ps).slot? (Slot.mark ns s)) := by
        rw [tokens_ofPieces hns hps hcols, List.map_map]
        exact List.map_congr_left fun t _ => t.map_map _ _
    _ = (numberFrom 0 (allTokens ps)).map (Token.map fun s => some s.1) := map_congr_of_holes hslot
    _ = ((numberFrom 0 (allTokens ps)).map (Token.map Prod.fst)).map (Token.map some) := by
        rw [List.map_map]
        exact (List.map_congr_left fun t _ => t.map_map _ _).symm
    _ = (allTokens ps).map (Token.map some) := by rw [map_fst_numberFrom]

theorem reading_ofPieces (hns : isIdentifier ns.toList = true) (hps : Tidy ps)
    (hcols : ∀ s ∈ slots ps, s.column ∈ columnNames) :
    (ofPieces ns ps).reading = (readTokens (allTokens ps)).map (TokenTree.map some) := by
  unfold reading Sql.read
  rw [← readTokens_map, tokens_map_slot? hns hps hcols, readTokens_map]

/-- The placeholders of a text, in order, are those of the slots. -/
theorem placeholders_ofPieces (hns : isIdentifier ns.toList = true) (hps : Tidy ps)
    (hcols : ∀ s ∈ slots ps, s.column ∈ columnNames) :
    (ofPieces ns ps).placeholders = Slot.names (slots ps) := by
  have hmarks : (scan (ofPieces ns ps).sqlText.toList).marks.map (·.1) =
      (slots ps).zipIdx.map (Slot.mark ns) := by
    rw [← Sql.holes_tokens, tokens_ofPieces hns hps hcols, holes_map, holes_numberFrom,
      holes_allTokens]
  calc (ofPieces ns ps).placeholders
      = ((scan (ofPieces ns ps).sqlText.toList).marks.map (·.1)).map
          fun m => String.ofList m.name := by
        rw [List.map_map]
        rfl
    _ = (slots ps).zipIdx.map fun s => numbered s.1.column s.2 := by
        rw [hmarks, List.map_map]
        exact List.map_congr_left fun s _ => String.ofList_toList
    _ = Slot.names (slots ps) := by
        rw [Slot.names, List.mapIdx_eq_zipIdx_map]

end Condition

end SearchFilter
