import SearchFilter.Proofs.Condition.Namespace
import SearchFilter.Proofs.Sql.Literal

/-!
# Texts with the values written in

Where the texts of pieces have no quotes and no two slots are next to each other, the only literals
of a condition with its values written in are those values: every literal ends where it was
written, and what stands in it is not read again.

Main statement: `Scanned.Spaced.literals?_join`.
-/

namespace SearchFilter

open Piece

/-! ## Pieces -/

namespace Piece

/-- Pieces with a text between any two slots, and no quotes in the texts. -/
inductive Spaced : List Piece → Prop
  | nil : Spaced []
  | text {s : String} {ps : List Piece} (hs : '\'' ∉ s.toList) (h : Spaced ps) :
      Spaced (.text s :: ps)
  | slot (column value : String) : Spaced [.slot column value]
  | slot_text {s : String} {ps : List Piece} (column value : String) (h : Spaced (.text s :: ps)) :
      Spaced (.slot column value :: .text s :: ps)

variable {ps qs : List Piece} {s : String}

theorem Spaced.append_text (h : Spaced ps) (hs : '\'' ∉ s.toList) (h' : Spaced qs) :
    Spaced (ps ++ .text s :: qs) := by
  induction h with
  | nil => exact .text hs h'
  | text ht _ ih => exact .text ht ih
  | slot column value => exact .slot_text column value (.text hs h')
  | slot_text column value _ ih => exact .slot_text column value ih

theorem Spaced.parenthesized (h : Spaced ps) : Spaced (parenthesized ps) :=
  .text (by decide) (h.append_text (by decide) .nil)

theorem Spaced.separated {rest : List (List Piece)} (h : Spaced ps) (hs : '\'' ∉ s.toList)
    (hrest : ∀ qs ∈ rest, Spaced qs) : Spaced (separated s ps rest) := by
  unfold Piece.separated
  induction rest generalizing ps with
  | nil => rwa [List.flatMap_nil, List.append_nil]
  | cons qs rest ih =>
    rw [List.forall_mem_cons] at hrest
    rw [List.flatMap_cons, ← List.append_assoc]
    exact ih (h.append_text hs hrest.1) hrest.2

end Piece

/-! ## Scans -/

namespace Scanned

/-- A text without quotes, in which something stands between any two placeholders. -/
structure Spaced (s : Scanned) : Prop where
  lead : '\'' ∉ s.lead
  after : ∀ p ∈ s.marks, '\'' ∉ p.2
  apart : s.marks.IsChain fun p _ => p.2 ≠ []

/-- The symbols of a text whose placeholders are literals. -/
def symbols (content : Mark → List Char) (s : Scanned) : List Sql.Symbol :=
  s.lead.map .char ++ s.marks.flatMap fun (m, after) => .literal (content m) :: after.map .char

variable {s : Scanned} {lead t : List Char} {m : Mark} {marks : List (Mark × List Char)}

theorem Spaced.nil : Spaced ⟨[], []⟩ :=
  ⟨List.not_mem_nil, nofun, .nil⟩

theorem Spaced.tail (h : Spaced ⟨lead, (m, t) :: marks⟩) : Spaced ⟨t, marks⟩ where
  lead := h.after _ List.mem_cons_self
  after p hp := h.after p (List.mem_cons_of_mem _ hp)
  apart := h.apart.tail

theorem Spaced.text (h : s.Spaced) (hlead : '\'' ∉ lead) : Spaced ⟨lead ++ s.lead, s.marks⟩ where
  lead hmem := (List.mem_append.1 hmem).elim hlead h.lead
  after := h.after
  apart := h.apart

theorem Spaced.mark (h : s.Spaced) (hnext : s.marks = [] ∨ s.lead ≠ []) :
    Spaced ⟨[], (m, s.lead) :: s.marks⟩ where
  lead := List.not_mem_nil
  after := List.forall_mem_cons.2 ⟨h.lead, h.after⟩
  apart := by
    refine h.apart.cons fun p hp => hnext.resolve_left fun hnil => ?_
    rw [hnil] at hp
    cases hp

theorem join_congr {write write' : Mark → List Char} (h : ∀ p ∈ s.marks, write p.1 = write' p.1) :
    s.join write = s.join write' := by
  unfold join
  exact congrArg _ (List.flatMap_congr fun p hp => congrArg (· ++ p.2) (h p hp))

/-- No quote follows a literal. -/
theorem Spaced.head?_ne (h : Spaced ⟨lead, (m, t) :: marks⟩) (write : Mark → List Char) :
    (join write ⟨t, marks⟩).head? ≠ some '\'' := by
  cases t with
  | nil =>
    cases marks with
    | nil => exact nofun
    | cons p marks => exact absurd rfl (List.isChain_cons_cons.1 h.apart).1
  | cons c t =>
    intro hc
    refine h.tail.lead ?_
    cases hc
    exact List.mem_cons_self

/-- The literals of a text with values written in are the values, each in its place. -/
theorem Spaced.literals?_join (h : s.Spaced) (value : Mark → String) :
    Sql.literals? (s.join fun m => Condition.literal (value m)) =
      some (s.symbols fun m => (value m).toList) := by
  obtain ⟨lead, marks⟩ := s
  induction marks generalizing lead with
  | nil =>
    rw [join, List.flatMap_nil, List.append_nil, Sql.literals?_of_not_mem h.lead, symbols,
      List.flatMap_nil, List.append_nil]
  | cons p marks ih =>
    obtain ⟨m, after⟩ := p
    have hsplit : join (fun m => Condition.literal (value m)) ⟨lead, (m, after) :: marks⟩ =
        lead ++ (Condition.literal (value m) ++
          join (fun m => Condition.literal (value m)) ⟨after, marks⟩) := by
      simp [join]
    rw [hsplit, Sql.literals?_append h.lead, Sql.literals?_literal_append _ (h.head?_ne _),
      ih after h.tail]
    simp [symbols]

end Scanned

/-! ## Written pieces -/

namespace Condition

variable {ns : String} {ps : List Piece}

/-- What is written is spaced as the pieces are. -/
theorem spaced_scan_written (hns : isIdentifier ns.toList = true) (hspaced : Piece.Spaced ps)
    (hps : Tidy ps) (hcols : ∀ s ∈ slots ps, s.column ∈ columnNames) (k : ℕ) :
    (scan (String.join (written ns k ps)).toList).Spaced := by
  have hnil : ∀ k, scan (String.join (written ns k [])).toList = ⟨[], []⟩ := fun k => by
    rw [written, String.toList_join, List.flatMap_nil, scan]
  induction hspaced generalizing k with
  | nil =>
    rw [hnil]
    exact .nil
  | text hs _ ih =>
    rw [toList_join_written_text, scan_append (hps.clean _ List.mem_cons_self).2]
    exact (ih hps.tail hcols k).text hs
  | slot column value =>
    have hcolumn : column ∈ columnNames := hcols ⟨column, value⟩ (List.mem_singleton_self _)
    rw [toList_join_written_slot, scan_render (Slot.proper_mark hns hcolumn k), hnil]
    exact Scanned.Spaced.nil.mark (.inl rfl)
  | @slot_text s ps column value _ ih =>
    have hslots : slots (.slot column value :: .text s :: ps) =
      ⟨column, value⟩ :: slots (.text s :: ps) := rfl
    rw [hslots, List.forall_mem_cons] at hcols
    rw [toList_join_written_slot, scan_render (Slot.proper_mark hns hcols.1 k)]
    refine (ih hps.tail hcols.2 (k + 1)).mark (.inr ?_)
    obtain ⟨hne, hclean⟩ := hps.tail.clean _ List.mem_cons_self
    rw [toList_join_written_text, scan_append hclean]
    exact List.append_ne_nil_of_left_ne_nil (by simpa using hne) _

theorem spaced_ofPieces (hns : isIdentifier ns.toList = true) (hspaced : Piece.Spaced ps)
    (hps : Tidy ps) (hcols : ∀ s ∈ slots ps, s.column ∈ columnNames) :
    (scan (ofPieces ns ps).sqlText.toList).Spaced := by
  rw [sqlText_ofPieces ns hcols]
  exact spaced_scan_written hns hspaced hps hcols 0

/-- With a value for each placeholder, the values are written in. -/
theorem toList_inlined {c : Condition} {value : Mark → String}
    (h : ∀ m ∈ c.marks, c.parameters.get? (String.ofList m.name) = some (value m)) :
    c.inlined.toList = (scan c.sqlText.toList).join fun m => literal (value m) := by
  rw [inlined, String.toList_ofList]
  refine Scanned.join_congr fun p hp => ?_
  rw [h p.1 (List.mem_map_of_mem hp)]

end Condition

end SearchFilter
