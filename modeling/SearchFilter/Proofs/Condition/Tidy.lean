import Mathlib.Data.List.Chain
import SearchFilter.Proofs.Condition.Filling

/-!
# Reading what was written

A condition's text is scanned and cut into tokens, and what comes back are the tokens of the pieces
that it was made of. For this no text of a piece may look like a placeholder, and no word may run
from one piece into the next.

Main statement: `tokens_ofPieces`.
-/

namespace SearchFilter

open Piece Sql

/-! ## Numbered placeholders -/

namespace Sql

variable {α β : Type}

/-- Numbers the placeholders of tokens. -/
def numberFrom : ℕ → List (Token α) → List (Token (α × ℕ))
  | _, [] => []
  | k, .hole a :: ts => .hole (a, k) :: numberFrom (k + 1) ts
  | k, .word letters :: ts => .word letters :: numberFrom k ts
  | k, .sign c :: ts => .sign c :: numberFrom k ts
  | k, .opening :: ts => .opening :: numberFrom k ts
  | k, .closing :: ts => .closing :: numberFrom k ts

theorem map_fst_numberFrom (k : ℕ) (ts : List (Token α)) :
    (numberFrom k ts).map (Token.map Prod.fst) = ts := by
  induction ts generalizing k with
  | nil => rfl
  | cons t ts ih => cases t <;> exact congrArg (_ :: ·) (ih _)

theorem holes_numberFrom (k : ℕ) (ts : List (Token α)) :
    holes (numberFrom k ts) = (holes ts).zipIdx k := by
  induction ts generalizing k with
  | nil => rfl
  | cons t ts ih =>
    cases t with
    | hole a => exact congrArg ((a, k) :: ·) (ih (k + 1))
    | word letters | sign c | opening | closing => exact ih k

theorem numberFrom_append (k : ℕ) (ts us : List (Token α)) :
    numberFrom k (ts ++ us) = numberFrom k ts ++ numberFrom (k + (holes ts).length) us := by
  induction ts generalizing k with
  | nil => rfl
  | cons t ts ih =>
    cases t with
    | hole a =>
      have hlength : (holes (.hole a :: ts)).length = (holes ts).length + 1 := rfl
      have h := ih (k + 1)
      rw [hlength, ← Nat.add_assoc, Nat.add_right_comm]
      exact congrArg (_ :: ·) h
    | word letters | sign c | opening | closing => exact congrArg (_ :: ·) (ih k)

theorem numberFrom_of_holes_eq_nil {ts : List (Token α)} (h : holes ts = []) (k : ℕ)
    (f : α → α × ℕ) : numberFrom k ts = ts.map (Token.map f) := by
  induction ts with
  | nil => rfl
  | cons t ts ih =>
    cases t with
    | hole a => exact absurd h (List.cons_ne_nil _ _)
    | word letters | sign c | opening | closing => exact congrArg (_ :: ·) (ih h)

theorem numberFrom_lex (k : ℕ) (s : List Char) :
    numberFrom k (lex s : List (Token α)) = lex s := by
  rw [numberFrom_of_holes_eq_nil (holes_lex s) k (·, k), map_lex]

end Sql

namespace Slot

/-- The placeholder of a numbered slot. -/
def mark (ns : String) (s : Slot × ℕ) : Mark := ⟨ns.toList, (numbered s.1.column s.2).toList⟩

theorem render_mark (ns : String) (s : Slot) (k : ℕ) :
    (mark ns (s, k)).render = (placeholder ns (numbered s.column k)).toList := by
  unfold placeholder
  simp [Mark.render, mark]

theorem proper_mark {ns : String} (hns : isIdentifier ns.toList = true) {s : Slot}
    (hs : s.column ∈ columnNames) (k : ℕ) : (mark ns (s, k)).Proper where
  ns := hns
  name_ne := by
    rw [mark, toList_numbered]
    exact List.append_ne_nil_of_left_ne_nil (isColumnName_of_mem hs).ne _
  name_open hmem := by
    rw [mark, toList_numbered, List.mem_append] at hmem
    rcases hmem with h | h
    · exact absurd ((isColumnName_of_mem hs).rest _ h) (by decide)
    · exact absurd (isDigit_of_mem_toDigits h) (by decide)

end Slot

/-! ## Tidy pieces -/

namespace Piece

/-- A text that is not empty and has no placeholder in it. -/
def Clean : Piece → Prop
  | text s => s ≠ "" ∧ '#' ∉ s.toList
  | slot _ _ => True

/-- No word runs across from one piece into the next. -/
def Apart : Piece → Piece → Prop
  | text s, text t => endsInWord s.toList = false ∨ startsInWord t.toList = false
  | _, _ => True

/-- Whether a word is under way where the pieces begin. -/
def startInWord : List Piece → Bool
  | text s :: _ => startsInWord s.toList
  | _ => false

/-- Pieces that can be told apart again. -/
structure Tidy (ps : List Piece) : Prop where
  clean : ∀ p ∈ ps, p.Clean
  apart : ps.IsChain Apart

variable {p : Piece} {ps : List Piece} {s column value : String}

theorem Tidy.tail (h : Tidy (p :: ps)) : Tidy ps :=
  ⟨fun q hq => h.clean q (List.mem_cons_of_mem p hq), h.apart.tail⟩

theorem Tidy.ends_or_start (h : Tidy (text s :: ps)) :
    endsInWord s.toList = false ∨ startInWord ps = false := by
  cases ps with
  | nil => exact .inr rfl
  | cons q ps =>
    cases q with
    | text t => exact (List.isChain_cons_cons.1 h.apart).1
    | slot column value => exact .inr rfl

/-- A text with which no word runs together, on either side. -/
structure IsGlue (s : String) : Prop where
  ne : s ≠ ""
  clean : '#' ∉ s.toList
  ends : endsInWord s.toList = false
  starts : startsInWord s.toList = false

theorem IsGlue.apart_left (h : IsGlue s) (p : Piece) : Apart p (text s) := by
  cases p with
  | text t => exact .inr h.starts
  | slot column value => trivial

theorem tidy_text (hs : Clean (text s)) : Tidy [text s] := ⟨by simpa using hs, .singleton _⟩

theorem tidy_slot (column value : String) : Tidy [slot column value] :=
  ⟨by simp [Clean], .singleton _⟩

theorem Tidy.cons_slot (h : Tidy ps) (column value : String) : Tidy (slot column value :: ps) where
  clean := by
    rw [List.forall_mem_cons]
    exact ⟨trivial, h.clean⟩
  apart := h.apart.cons fun _ _ => trivial

theorem Tidy.cons_text (h : Tidy ps) (hs : Clean (text s)) (he : endsInWord s.toList = false) :
    Tidy (text s :: ps) where
  clean := by
    rw [List.forall_mem_cons]
    exact ⟨hs, h.clean⟩
  apart := by
    refine h.apart.cons fun q _ => ?_
    cases q with
    | text t => exact .inl he
    | slot column value => trivial

theorem Tidy.cons_glue (h : Tidy ps) (hs : IsGlue s) : Tidy (text s :: ps) :=
  h.cons_text ⟨hs.ne, hs.clean⟩ hs.ends

theorem Tidy.append_glue {qs : List Piece} (h : Tidy ps) (hs : IsGlue s) (h' : Tidy qs) :
    Tidy (ps ++ text s :: qs) where
  clean := by
    rw [List.forall_mem_append]
    exact ⟨h.clean, (h'.cons_glue hs).clean⟩
  apart := by
    refine h.apart.append (h'.cons_glue hs).apart fun p _ q hq => ?_
    rw [List.head?_cons, Option.mem_some_iff] at hq
    exact hq ▸ hs.apart_left p

theorem isGlue_opening : IsGlue "(" := ⟨by decide, by decide, by decide, by decide⟩

theorem isGlue_closing : IsGlue ")" := ⟨by decide, by decide, by decide, by decide⟩

theorem Tidy.parenthesized (h : Tidy ps) : Tidy (parenthesized ps) :=
  (h.append_glue isGlue_closing ⟨by simp, .nil⟩).cons_glue isGlue_opening

theorem Tidy.separated {rest : List (List Piece)} (h : Tidy ps) (hs : IsGlue s)
    (hrest : ∀ qs ∈ rest, Tidy qs) : Tidy (separated s ps rest) := by
  unfold Piece.separated
  induction rest generalizing ps with
  | nil => rwa [List.flatMap_nil, List.append_nil]
  | cons qs rest ih =>
    rw [List.forall_mem_cons] at hrest
    rw [List.flatMap_cons, ← List.append_assoc]
    exact ih (h.append_glue hs hrest.1) hrest.2

end Piece

theorem startsInWord_append {s : List Char} (h : s ≠ []) (t : List Char) :
    startsInWord (s ++ t) = startsInWord s := by
  cases s with
  | nil => exact absurd rfl h
  | cons c s => rfl

/-- The parts of a scan of a text after which `lead` comes are those of the scan of the rest. -/
theorem tokens_scan_append {s t : List Char} (hs : '#' ∉ s)
    (h : endsInWord s = false ∨ startsInWord (scan t).lead = false) :
    Scanned.tokens (scan (s ++ t)) = lex s ++ Scanned.tokens (scan t) := by
  rw [scan_append hs]
  unfold Scanned.tokens
  rw [lex_append h, List.append_assoc]

theorem tokens_scan_render {m : Mark} (hm : m.Proper) (t : List Char) :
    Scanned.tokens (scan (m.render ++ t)) = .hole m :: Scanned.tokens (scan t) := by
  rw [scan_render hm]
  rfl

theorem toList_join_written_text (ns : String) (k : ℕ) (s : String) (ps : List Piece) :
    (String.join (written ns k (.text s :: ps))).toList =
      s.toList ++ (String.join (written ns k ps)).toList := by
  simp [written, String.toList_join]

theorem toList_join_written_slot (ns : String) (k : ℕ) (column value : String) (ps : List Piece) :
    (String.join (written ns k (.slot column value :: ps))).toList =
      (Slot.mark ns (⟨column, value⟩, k)).render ++
        (String.join (written ns (k + 1) ps)).toList := by
  rw [Slot.render_mark]
  simp [written, String.toList_join]

/-- What is read of written pieces: their tokens, with placeholders numbered from `k` on. -/
theorem tokens_scan_written {ns : String} (hns : isIdentifier ns.toList = true)
    {ps : List Piece} (hps : Tidy ps) (hcols : ∀ s ∈ slots ps, s.column ∈ columnNames) (k : ℕ) :
    startsInWord (scan (String.join (written ns k ps)).toList).lead = startInWord ps ∧
      Scanned.tokens (scan (String.join (written ns k ps)).toList) =
        (numberFrom k (allTokens ps)).map (Token.map (Slot.mark ns)) := by
  induction ps generalizing k with
  | nil =>
    have hscan : scan (String.join (written ns k [])).toList = ⟨[], []⟩ := by
      rw [written, String.toList_join, List.flatMap_nil, scan]
    rw [hscan]
    exact ⟨rfl, rfl⟩
  | cons p ps ih =>
    cases p with
    | text s =>
      obtain ⟨hne, hclean⟩ := hps.clean _ List.mem_cons_self
      obtain ⟨hlead, htokens⟩ := ih hps.tail hcols k
      have hjoin := toList_join_written_text ns k s ps
      have hstart := hps.ends_or_start
      rw [← hlead] at hstart
      constructor
      · rw [hjoin, scan_append hclean]
        exact startsInWord_append (by simpa using hne) _
      · rw [hjoin, tokens_scan_append hclean hstart, htokens, allTokens_cons, Piece.tokens,
          numberFrom_append, holes_lex, numberFrom_lex, List.map_append, map_lex]
        rfl
    | slot column value =>
      have hslots : slots (.slot column value :: ps) = ⟨column, value⟩ :: slots ps := rfl
      rw [hslots, List.forall_mem_cons] at hcols
      obtain ⟨hlead, htokens⟩ := ih hps.tail hcols.2 (k + 1)
      have hjoin := toList_join_written_slot ns k column value ps
      have hproper := Slot.proper_mark hns hcols.1 k
      constructor
      · rw [hjoin, scan_render hproper]
        rfl
      · rw [hjoin, tokens_scan_render hproper, htokens]
        rfl

/-- Nothing is written only where there are no pieces. -/
theorem sqlText_ofPieces_eq_empty_iff (ns : String) {ps : List Piece} (hps : Tidy ps)
    (hcols : ∀ s ∈ slots ps, s.column ∈ columnNames) :
    (Condition.ofPieces ns ps).sqlText = "" ↔ ps = [] := by
  refine ⟨fun h => ?_, fun h => by rw [h]; rfl⟩
  rw [Condition.sqlText_ofPieces ns hcols, ← String.toList_eq_nil_iff, String.toList_join,
    List.flatMap_eq_nil_iff] at h
  cases ps with
  | nil => rfl
  | cons p ps =>
    cases p with
    | text s =>
      have hs := h s List.mem_cons_self
      exact absurd (String.toList_eq_nil_iff.1 hs) (hps.clean _ List.mem_cons_self).1
    | slot column value =>
      have hs := h (placeholder ns (numbered column 0)) List.mem_cons_self
      simp [placeholder] at hs

theorem tokens_ofPieces {ns : String} (hns : isIdentifier ns.toList = true) {ps : List Piece}
    (hps : Tidy ps) (hcols : ∀ s ∈ slots ps, s.column ∈ columnNames) :
    Sql.tokens (Condition.ofPieces ns ps).sqlText =
      (numberFrom 0 (allTokens ps)).map (Token.map (Slot.mark ns)) := by
  unfold Sql.tokens
  rw [Condition.sqlText_ofPieces ns hcols]
  exact (tokens_scan_written hns hps hcols 0).2

end SearchFilter
