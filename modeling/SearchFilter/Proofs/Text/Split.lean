import SearchFilter.Text.Basic

/-!
# The pieces of texts

A text is cut at every character of a kind. The pieces without the empty ones are the runs of the
text: the stretches, as long as they can be, in which there is no character of that kind.

Main statement: `runs_iff`.
-/

namespace SearchFilter

variable {p : Char → Bool} {s : List Char} {runs : List (List Char)}

/-- The runs of a text, from left to right. Before a run there may be characters with `p`; after it
comes one of them, or the end. -/
inductive Runs (p : Char → Bool) : List Char → List (List Char) → Prop
  | none {gap : List Char} (hgap : ∀ c ∈ gap, p c = true) : Runs p gap []
  | run {gap run rest : List Char} {runs : List (List Char)} (hgap : ∀ c ∈ gap, p c = true)
      (hne : run ≠ []) (hrun : ∀ c ∈ run, p c = false) (hend : ∀ c ∈ rest.head?, p c = true)
      (hrest : Runs p rest runs) : Runs p (gap ++ (run ++ rest)) (run :: runs)

/-! ## Pieces -/

theorem pieces_eq_splitOnP (p : Char → Bool) (s : List Char) : pieces p s = s.splitOnP p := by
  induction s with
  | nil => rfl
  | cons c s ih =>
    rw [List.splitOnP_cons_eq_if_modifyHead, ← ih, pieces, pieces, cut]
    cases p c <;> rfl

theorem eq_false_of_mem_pieces {piece : List Char} (h : piece ∈ pieces p s) :
    ∀ c ∈ piece, p c = false := by
  induction s generalizing piece with
  | nil =>
    rw [pieces, cut, List.mem_singleton] at h
    simp [h]
  | cons c s ih =>
    rw [pieces, cut] at h
    cases hc : p c with
    | true =>
      rw [hc] at h
      rcases List.mem_cons.1 h with rfl | hmem
      · simp
      · exact ih hmem
    | false =>
      rw [hc] at h
      rcases List.mem_cons.1 h with rfl | hmem
      · exact List.forall_mem_cons.2 ⟨hc, ih List.mem_cons_self⟩
      · exact ih (List.mem_cons_of_mem _ hmem)

/-- Between the pieces there is nothing but the characters that the text is cut at. -/
theorem intercalate_pieces (x : Char) (s : List Char) :
    [x].intercalate (pieces (· == x) s) = s := by
  rw [pieces_eq_splitOnP]
  exact List.intercalate_splitOn x

theorem filter_nonempty_cons {piece : List Char} (h : piece ≠ []) (later : List (List Char)) :
    (piece :: later).filter (fun r => !r.isEmpty) = piece :: later.filter fun r => !r.isEmpty :=
  List.filter_cons_of_pos (by simpa using h)

/-- A character to cut at adds nothing in front of a text. -/
theorem nonemptyPieces_cons_of_pos {c : Char} (hc : p c = true) (s : List Char) :
    nonemptyPieces p (c :: s) = nonemptyPieces p s := by
  rw [nonemptyPieces, nonemptyPieces, pieces_eq_splitOnP, pieces_eq_splitOnP,
    List.splitOnP_cons_eq_if_modifyHead, if_pos hc]
  rfl

theorem nonemptyPieces_append_of_forall {gap : List Char} (h : ∀ c ∈ gap, p c = true)
    (s : List Char) : nonemptyPieces p (gap ++ s) = nonemptyPieces p s := by
  induction gap with
  | nil => rfl
  | cons c gap ih =>
    rw [List.forall_mem_cons] at h
    rw [List.cons_append, nonemptyPieces_cons_of_pos h.1, ih h.2]

/-- A run in front of a text is its first piece. -/
theorem nonemptyPieces_append_of_run {run rest : List Char} (hne : run ≠ [])
    (hrun : ∀ c ∈ run, p c = false) (hend : ∀ c ∈ rest.head?, p c = true) :
    nonemptyPieces p (run ++ rest) = run :: nonemptyPieces p rest := by
  cases rest with
  | nil =>
    rw [List.append_nil, nonemptyPieces, pieces_eq_splitOnP, List.splitOnP_eq_singleton hrun,
      filter_nonempty_cons hne]
    rfl
  | cons c rest =>
    have hc : p c = true := hend c rfl
    rw [nonemptyPieces_cons_of_pos hc, nonemptyPieces, nonemptyPieces, pieces_eq_splitOnP,
      List.splitOnP_append_cons_of_forall_mem hrun c hc, filter_nonempty_cons hne,
      pieces_eq_splitOnP]

/-! ## Runs -/

theorem Runs.eq_nonemptyPieces (h : Runs p s runs) : runs = nonemptyPieces p s := by
  induction h with
  | @none gap hgap =>
    have hnil := nonemptyPieces_append_of_forall hgap []
    rw [List.append_nil] at hnil
    exact hnil.symm
  | run hgap hne hrun hend _ ih =>
    rw [nonemptyPieces_append_of_forall hgap, nonemptyPieces_append_of_run hne hrun hend, ih]

theorem Runs.cons_gap {c : Char} (hc : p c = true) (h : Runs p s runs) : Runs p (c :: s) runs := by
  cases h with
  | none hgap => exact .none (List.forall_mem_cons.2 ⟨hc, hgap⟩)
  | run hgap hne hrun hend hrest =>
    exact .run (List.forall_mem_cons.2 ⟨hc, hgap⟩) hne hrun hend hrest

/-- A piece at the start of a text is its first run, unless the piece is empty. -/
theorem Runs.append_piece {piece rest : List Char} {later : List (List Char)}
    (hpiece : ∀ c ∈ piece, p c = false) (hend : ∀ c ∈ rest.head?, p c = true)
    (h : Runs p rest (later.filter fun r => !r.isEmpty)) :
    Runs p (piece ++ rest) ((piece :: later).filter fun r => !r.isEmpty) := by
  cases piece with
  | nil => exact h
  | cons c piece =>
    have hruns := Runs.run (List.forall_mem_nil _) (List.cons_ne_nil c piece) hpiece hend h
    exact hruns

/-- A cut leaves the text up to the first character to cut at, and the pieces from there on. -/
theorem exists_rest_of_cut (p : Char → Bool) (s : List Char) :
    ∃ rest, s = (cut p s).1 ++ rest ∧ (∀ c ∈ (cut p s).1, p c = false) ∧
      (∀ c ∈ rest.head?, p c = true) ∧
      Runs p rest ((cut p s).2.filter fun r => !r.isEmpty) := by
  induction s with
  | nil => exact ⟨[], rfl, by simp [cut], by simp, .none (by simp)⟩
  | cons c s ih =>
    obtain ⟨rest, hs, hpiece, hend, hrest⟩ := ih
    rw [cut]
    cases hc : p c with
    | true =>
      refine ⟨c :: s, rfl, by simp, by simpa using hc, ?_⟩
      have hruns := (hrest.append_piece hpiece hend).cons_gap hc
      rwa [← hs] at hruns
    | false =>
      refine ⟨rest, congrArg (c :: ·) hs, ?_, hend, hrest⟩
      exact List.forall_mem_cons.2 ⟨hc, hpiece⟩

theorem runs_nonemptyPieces (p : Char → Bool) (s : List Char) : Runs p s (nonemptyPieces p s) := by
  obtain ⟨rest, hs, hpiece, hend, hrest⟩ := exists_rest_of_cut p s
  have hruns := hrest.append_piece hpiece hend
  rwa [← hs] at hruns

/-- The pieces that are not empty are the runs of a text. -/
theorem runs_iff : Runs p s runs ↔ runs = nonemptyPieces p s := by
  refine ⟨Runs.eq_nonemptyPieces, ?_⟩
  rintro rfl
  exact runs_nonemptyPieces p s

end SearchFilter
