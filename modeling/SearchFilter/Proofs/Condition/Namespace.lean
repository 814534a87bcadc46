import SearchFilter.Proofs.Condition.Tidy

/-!
# Conditions in namespaces

A number sign in the text of a condition begins one of its placeholders, and all of them are in
the namespace of the condition. In another namespace the same pieces are written as the same text
but for the namespaces of the placeholders.

Main statements: `Scanned.Owned.exists_begins`, `Condition.owned_ofPieces` and
`Condition.scan_ofPieces_inNamespace`.
-/

namespace SearchFilter

open Piece

/-! ## Marks -/

namespace Mark

/-- The placeholder of the same name in a namespace. -/
def inNamespace (ns : String) (m : Mark) : Mark := ⟨ns.toList, m.name⟩

variable {m m' : Mark}

theorem Proper.eq_of_render_eq (h : m.Proper) (h' : m'.Proper) (heq : m.render = m'.render) :
    m = m' := by
  have hread := read?_render h []
  rw [heq, read?_render h' []] at hread
  cases hread
  rfl

/-- What stands after the number sign. -/
def body (m : Mark) : List Char := '{' :: m.ns ++ '.' :: m.name ++ ['}']

theorem render_eq_cons (m : Mark) : m.render = '#' :: m.body := rfl

theorem Proper.hash_not_mem_body (h : m.Proper) (hname : '#' ∉ m.name) : '#' ∉ m.body := by
  have hns : '#' ∉ m.ns := fun hmem => absurd (isIdentRest_of_mem h.ns _ hmem) (by decide)
  simp [body, hns, hname]

end Mark

theorem Slot.hash_not_mem_name {s : Slot} (hs : s.column ∈ columnNames) (ns : String) (k : ℕ) :
    '#' ∉ (mark ns (s, k)).name := by
  rw [mark, toList_numbered, List.mem_append]
  rintro (h | h)
  · exact absurd ((isColumnName_of_mem hs).rest _ h) (by decide)
  · exact absurd (isDigit_of_mem_toDigits h) (by decide)

/-- A text without a number sign comes before the first one. -/
theorem exists_eq_append_of_hash {s t before rest : List Char} (h : '#' ∉ s)
    (heq : s ++ t = before ++ '#' :: rest) :
    ∃ later, before = s ++ later ∧ t = later ++ '#' :: rest := by
  rcases List.append_eq_append_iff.1 heq with ⟨later, hbefore, ht⟩ | ⟨middle, hs, hrest⟩
  · exact ⟨later, hbefore, ht⟩
  · cases middle with
    | nil => exact ⟨[], by simpa using hs.symm, hrest.symm⟩
    | cons c middle =>
      cases hrest
      exact absurd (hs ▸ List.mem_append_right before List.mem_cons_self) h

/-! ## Scans -/

namespace Scanned

/-- The same text with its placeholders in a namespace. -/
def inNamespace (ns : String) (s : Scanned) : Scanned :=
  ⟨s.lead, s.marks.map fun (m, after) => (m.inNamespace ns, after)⟩

/-- One of the marks of a text begins right after `before`. -/
def Begins (s : Scanned) (before : List Char) (m : Mark) : Prop :=
  ∃ earlier after later, s.marks = earlier ++ (m, after) :: later ∧
    before = join Mark.render ⟨s.lead, earlier⟩

/-- A text with marks in one namespace, and no number sign but where a mark begins. -/
structure Owned (ns : String) (s : Scanned) : Prop where
  lead : '#' ∉ s.lead
  after : ∀ p ∈ s.marks, '#' ∉ p.2
  ns_eq : ∀ p ∈ s.marks, p.1.ns = ns.toList
  proper : ∀ p ∈ s.marks, p.1.Proper
  name : ∀ p ∈ s.marks, '#' ∉ p.1.name

variable {ns : String} {lead s t : List Char} {m : Mark} {marks : List (Mark × List Char)}

theorem Begins.cons {before : List Char} {m' : Mark}
    (h : Begins ⟨t, marks⟩ before m) :
    Begins ⟨lead, (m', t) :: marks⟩ (lead ++ (m'.render ++ before)) m := by
  obtain ⟨earlier, after, later, hmarks, hbefore⟩ := h
  refine ⟨(m', t) :: earlier, after, later, congrArg (_ :: ·) hmarks, ?_⟩
  rw [hbefore]
  simp [join]

theorem Owned.nil : Owned ns ⟨[], []⟩ :=
  ⟨List.not_mem_nil, nofun, nofun, nofun, nofun⟩

theorem Owned.tail (h : Owned ns ⟨lead, (m, t) :: marks⟩) : Owned ns ⟨t, marks⟩ where
  lead := h.after _ List.mem_cons_self
  after p hp := h.after p (List.mem_cons_of_mem _ hp)
  ns_eq p hp := h.ns_eq p (List.mem_cons_of_mem _ hp)
  proper p hp := h.proper p (List.mem_cons_of_mem _ hp)
  name p hp := h.name p (List.mem_cons_of_mem _ hp)

theorem Owned.text {scanned : Scanned} (h : Owned ns scanned) (hs : '#' ∉ s) :
    Owned ns ⟨s ++ scanned.lead, scanned.marks⟩ where
  lead hmem := (List.mem_append.1 hmem).elim hs h.lead
  after := h.after
  ns_eq := h.ns_eq
  proper := h.proper
  name := h.name

theorem Owned.mark {scanned : Scanned} (h : Owned ns scanned) (hns : m.ns = ns.toList)
    (hm : m.Proper) (hname : '#' ∉ m.name) :
    Owned ns ⟨[], (m, scanned.lead) :: scanned.marks⟩ where
  lead := List.not_mem_nil
  after := List.forall_mem_cons.2 ⟨h.lead, h.after⟩
  ns_eq := List.forall_mem_cons.2 ⟨hns, h.ns_eq⟩
  proper := List.forall_mem_cons.2 ⟨hm, h.proper⟩
  name := List.forall_mem_cons.2 ⟨hname, h.name⟩

/-- Every number sign begins a mark. -/
theorem Owned.exists_begins {scanned : Scanned} (h : Owned ns scanned) {before rest : List Char}
    (heq : scanned.join Mark.render = before ++ '#' :: rest) :
    ∃ m, scanned.Begins before m ∧ m.ns = ns.toList := by
  obtain ⟨lead, marks⟩ := scanned
  induction marks generalizing lead before with
  | nil =>
    obtain ⟨later, -, hlater⟩ := exists_eq_append_of_hash h.lead heq
    simp at hlater
  | cons p marks ih =>
    obtain ⟨m, after⟩ := p
    have hm := h.proper _ List.mem_cons_self
    obtain ⟨later, rfl, hlater⟩ := exists_eq_append_of_hash h.lead heq
    cases later with
    | nil => exact ⟨m, ⟨[], after, marks, rfl, rfl⟩, h.ns_eq _ List.mem_cons_self⟩
    | cons c later =>
      have hsplit : '#' :: (m.body ++ join Mark.render ⟨after, marks⟩) =
          c :: (later ++ '#' :: rest) := by
        rw [← List.cons_append, ← List.cons_append, ← hlater, ← m.render_eq_cons]
        simp [join]
      obtain ⟨rfl, hrest⟩ := List.cons.inj hsplit
      have hbody := hm.hash_not_mem_body (h.name _ List.mem_cons_self)
      obtain ⟨before, rfl, hbefore⟩ := exists_eq_append_of_hash hbody hrest
      obtain ⟨m', hbegins, hns⟩ := ih after h.tail hbefore
      exact ⟨m', hbegins.cons, hns⟩

end Scanned

/-! ## Written pieces -/

namespace Condition

/-- The placeholders in the text, in order. -/
def marks (c : Condition) : List Mark := (scan c.sqlText.toList).marks.map (·.1)

variable {ns ns' : String} {ps : List Piece}

theorem owned_scan_written (hns : isIdentifier ns.toList = true) (hps : Tidy ps)
    (hcols : ∀ s ∈ slots ps, s.column ∈ columnNames) (k : ℕ) :
    (scan (String.join (written ns k ps)).toList).Owned ns := by
  induction ps generalizing k with
  | nil =>
    rw [written, String.toList_join, List.flatMap_nil, scan]
    exact .nil
  | cons p ps ih =>
    cases p with
    | text s =>
      have hclean := (hps.clean _ List.mem_cons_self).2
      rw [toList_join_written_text, scan_append hclean]
      exact (ih hps.tail hcols k).text hclean
    | slot column value =>
      have hslots : slots (.slot column value :: ps) = ⟨column, value⟩ :: slots ps := rfl
      rw [hslots, List.forall_mem_cons] at hcols
      have hproper := Slot.proper_mark hns hcols.1 k
      rw [toList_join_written_slot, scan_render hproper]
      exact (ih hps.tail hcols.2 (k + 1)).mark rfl hproper (Slot.hash_not_mem_name hcols.1 ns k)

theorem scan_written_inNamespace (hns : isIdentifier ns.toList = true)
    (hns' : isIdentifier ns'.toList = true) (hps : Tidy ps)
    (hcols : ∀ s ∈ slots ps, s.column ∈ columnNames) (k : ℕ) :
    scan (String.join (written ns' k ps)).toList =
      (scan (String.join (written ns k ps)).toList).inNamespace ns' := by
  induction ps generalizing k with
  | nil =>
    rw [written, written, String.toList_join, List.flatMap_nil, scan]
    rfl
  | cons p ps ih =>
    cases p with
    | text s =>
      have hclean := (hps.clean _ List.mem_cons_self).2
      rw [toList_join_written_text, toList_join_written_text, scan_append hclean,
        scan_append hclean, ih hps.tail hcols k]
      rfl
    | slot column value =>
      have hslots : slots (.slot column value :: ps) = ⟨column, value⟩ :: slots ps := rfl
      rw [hslots, List.forall_mem_cons] at hcols
      rw [toList_join_written_slot, toList_join_written_slot,
        scan_render (Slot.proper_mark hns hcols.1 k), scan_render (Slot.proper_mark hns' hcols.1 k),
        ih hps.tail hcols.2 (k + 1)]
      rfl

theorem owned_ofPieces (hns : isIdentifier ns.toList = true) (hps : Tidy ps)
    (hcols : ∀ s ∈ slots ps, s.column ∈ columnNames) :
    (scan (ofPieces ns ps).sqlText.toList).Owned ns := by
  rw [sqlText_ofPieces ns hcols]
  exact owned_scan_written hns hps hcols 0

theorem scan_ofPieces_inNamespace (hns : isIdentifier ns.toList = true)
    (hns' : isIdentifier ns'.toList = true) (hps : Tidy ps)
    (hcols : ∀ s ∈ slots ps, s.column ∈ columnNames) :
    scan (ofPieces ns' ps).sqlText.toList =
      (scan (ofPieces ns ps).sqlText.toList).inNamespace ns' := by
  rw [sqlText_ofPieces ns' hcols, sqlText_ofPieces ns hcols]
  exact scan_written_inNamespace hns hns' hps hcols 0

end Condition

end SearchFilter
