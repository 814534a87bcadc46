import Mathlib.Data.List.TakeWhile
import SearchFilter.Proofs.Condition.Namespace
import SearchFilter.Proofs.Condition.Reading

/-!
# The placeholders of any text

The text of a condition may come from anywhere: braces may be left open, names may be missing, and
a placeholder may be opened in the name of another one. Still it is cut in one way only, if what is
taken for a placeholder is one and none starts in what is left between them. So each is taken as
far to the left as it can be, and a placeholder that is not taken is the end of one that is.

Main statements: `Scanned.cuts_iff` and `Condition.exists_unique_cut`.
-/

namespace SearchFilter

/-- A text is divided in one way at the first character of a kind. -/
theorem eq_of_append_cons_eq {x : Char} {s t u v : List Char} (hs : x ∉ s) (ht : x ∉ t)
    (h : s ++ x :: u = t ++ x :: v) : s = t := by
  have hne : ∀ w : List Char, x ∉ w → ∀ c ∈ w, decide (c ≠ x) = true := fun w hw c hc =>
    decide_eq_true fun heq => hw (heq ▸ hc)
  have htake := congrArg (List.takeWhile (· ≠ x)) h
  rwa [takeWhile_append_cons (hne s hs) (by simp), takeWhile_append_cons (hne t ht) (by simp)]
    at htake

/-! ## Where placeholders are -/

namespace Mark

variable {m m' : Mark} {before s rest : List Char} {c c' : Char}

/-- A placeholder is written right after `before`, whatever else is there. -/
structure OccursAfter (m : Mark) (before s : List Char) : Prop where
  proper : m.Proper
  isPrefix : before ++ m.render <+: s

theorem proper_name_of_readName? {name : List Char} (h : readName? s = some (name, rest)) :
    name ≠ [] ∧ '}' ∉ name := by
  unfold readName? at h
  split at h
  · next c cs r hname _ =>
    cases h
    refine ⟨List.cons_ne_nil _ _, fun hmem => ?_⟩
    rw [← hname] at hmem
    simpa using List.mem_takeWhile_imp hmem
  · cases h

theorem proper_of_read? (h : read? s = some (m, rest)) : m.Proper := by
  unfold read? at h
  split at h
  · next s =>
    split at h
    · next hns =>
      split at h
      · obtain ⟨⟨name, rest'⟩, hname, heq⟩ := Option.map_eq_some_iff.1 h
        cases heq
        obtain ⟨hne, hopen⟩ := proper_name_of_readName? hname
        exact ⟨hns, hne, hopen⟩
      · cases h
    · cases h
  · cases h

/-- Nothing is read only where there is no placeholder. -/
theorem read?_eq_none_iff : read? s = none ↔ ∀ m : Mark, ¬ m.OccursAfter [] s := by
  constructor
  · rintro h m ⟨hm, rest, rfl⟩
    rw [List.nil_append, read?_render hm] at h
    cases h
  · intro h
    cases hread : read? s with
    | none => rfl
    | some p =>
      obtain ⟨m, rest⟩ := p
      exact absurd ⟨proper_of_read? hread, rest, (read?_eq_some hread).symm⟩ (h m)

theorem occursAfter_cons_cons :
    m.OccursAfter (c :: before) (c' :: s) ↔ c = c' ∧ m.OccursAfter before s := by
  constructor
  · rintro ⟨hm, hprefix⟩
    obtain ⟨hc, hprefix⟩ := List.cons_prefix_cons.1 hprefix
    exact ⟨hc, hm, hprefix⟩
  · rintro ⟨hc, hm, hprefix⟩
    exact ⟨hm, List.cons_prefix_cons.2 ⟨hc, hprefix⟩⟩

theorem OccursAfter.of_append {u : List Char} (h : m.OccursAfter (u ++ before) (u ++ s)) :
    m.OccursAfter before s := by
  refine ⟨h.proper, ?_⟩
  rw [← List.prefix_append_right_inj u, ← List.append_assoc]
  exact h.isPrefix

/-- What comes before a placeholder and is long enough begins with any beginning of the text. -/
theorem OccursAfter.exists_eq_append {u : List Char} (h : m.OccursAfter before (u ++ s))
    (hle : u.length ≤ before.length) : ∃ v, before = u ++ v ∧ m.OccursAfter v s := by
  have hbefore : before <+: u ++ s := (List.prefix_append _ _).trans h.isPrefix
  obtain ⟨v, rfl⟩ := List.prefix_of_prefix_length_le (List.prefix_append u s) hbefore hle
  exact ⟨v, rfl, h.of_append⟩

/-- A placeholder up to its closing brace. -/
def opened (m : Mark) : List Char := '#' :: '{' :: m.ns ++ '.' :: m.name

theorem render_eq_append (m : Mark) : m.render = m.opened ++ ['}'] := by
  simp [render, opened]

theorem Proper.not_mem_opened (h : m.Proper) : '}' ∉ m.opened := by
  have hns : '}' ∉ m.ns := fun hmem => absurd (isIdentRest_of_mem h.ns _ hmem) (by decide)
  simp [opened, hns, h.name_open]

/-- A brace closes every placeholder that is open: one that starts in another one is its end. -/
theorem OccursAfter.render_eq (h : m.OccursAfter before (m'.render ++ rest)) (hm' : m'.Proper)
    (hlt : before.length < m'.render.length) : m'.render = before ++ m.render := by
  obtain ⟨hm, rest', heq⟩ := h
  simp only [render_eq_append, List.append_assoc, List.singleton_append] at heq
  rw [render_eq_append, List.length_append, List.length_singleton] at hlt
  obtain ⟨v, hv⟩ : before <+: m'.opened :=
    List.prefix_of_prefix_length_le ⟨_, heq⟩ ⟨_, rfl⟩ (Nat.le_of_lt_succ hlt)
  have hopen' := hm'.not_mem_opened
  rw [← hv] at heq hopen'
  rw [List.append_assoc, List.append_cancel_left_eq] at heq
  have hend : m.opened = v :=
    eq_of_append_cons_eq hm.not_mem_opened (fun hmem => hopen' (List.mem_append_right _ hmem)) heq
  rw [render_eq_append, render_eq_append, ← hv, hend, List.append_assoc]

end Mark

/-! ## Cutting a text -/

namespace Scanned

open Mark

variable {t : Scanned} {m : Mark} {c : Char} {s lead after : List Char}
  {marks : List (Mark × List Char)}

/-- No placeholder starts in what comes before the first one that is taken. -/
def Clear (t : Scanned) : Prop :=
  ∀ m before, OccursAfter m before (t.join render) → t.lead.length ≤ before.length

/-- A text is made up of placeholders and of what is left between them, and no placeholder starts in
what is left. -/
structure Cuts (t : Scanned) (s : List Char) : Prop where
  join_eq : t.join render = s
  proper : ∀ p ∈ t.marks, p.1.Proper
  lead : t.Clear
  after : ∀ m after later, (m, after) :: later <:+ t.marks → Clear ⟨after, later⟩

theorem join_cons (write : Mark → List Char) :
    join write ⟨lead, (m, after) :: marks⟩ = lead ++ (write m ++ join write ⟨after, marks⟩) := by
  simp [join]

theorem clear_of_nil : Clear ⟨[], marks⟩ := fun _ _ _ => Nat.zero_le _

theorem clear_cons_iff :
    Clear ⟨c :: lead, marks⟩ ↔
      read? (c :: join render ⟨lead, marks⟩) = none ∧ Clear ⟨lead, marks⟩ := by
  have hjoin : join render ⟨c :: lead, marks⟩ = c :: join render ⟨lead, marks⟩ := rfl
  rw [read?_eq_none_iff, Clear, hjoin]
  constructor
  · refine fun h => ⟨fun m hm => absurd (h m [] hm) (Nat.not_succ_le_zero _), fun m before hm => ?_⟩
    exact Nat.le_of_succ_le_succ (h m (c :: before) (occursAfter_cons_cons.2 ⟨rfl, hm⟩))
  · rintro ⟨hnone, hclear⟩ m before hm
    cases before with
    | nil => exact absurd hm (hnone m)
    | cons c' before => exact Nat.succ_le_succ (hclear m before (occursAfter_cons_cons.1 hm).2)

/-! ### What scanning leaves -/

theorem Cuts.nil : Cuts ⟨[], []⟩ [] where
  join_eq := rfl
  proper := nofun
  lead := clear_of_nil
  after _ _ _ h := absurd (List.suffix_nil.1 h) (List.cons_ne_nil _ _)

theorem Cuts.char (h : t.Cuts s) (hread : read? (c :: s) = none) :
    Cuts ⟨c :: t.lead, t.marks⟩ (c :: s) where
  join_eq := congrArg (c :: ·) h.join_eq
  proper := h.proper
  lead := clear_cons_iff.2 ⟨h.join_eq ▸ hread, h.lead⟩
  after := h.after

theorem Cuts.mark (h : t.Cuts s) (hm : m.Proper) :
    Cuts ⟨[], (m, t.lead) :: t.marks⟩ (m.render ++ s) where
  join_eq := by rw [join_cons, List.nil_append, h.join_eq]
  proper := List.forall_mem_cons.2 ⟨hm, h.proper⟩
  lead := clear_of_nil
  after m' after later hsuffix := by
    rcases List.suffix_cons_iff.1 hsuffix with heq | hsuffix
    · cases heq
      exact h.lead
    · exact h.after m' after later hsuffix

theorem cuts_scan (s : List Char) : (scan s).Cuts s := by
  fun_induction scan s with
  | case1 => exact .nil
  | case2 c s m rest h later ih =>
    rw [read?_eq_some h]
    exact ih.mark (proper_of_read? h)
  | case3 c s h later ih => exact ih.char h

/-! ### There is no other cut -/

theorem Cuts.tail (h : Cuts ⟨lead, (m, after) :: marks⟩ s) :
    Cuts ⟨after, marks⟩ (join render ⟨after, marks⟩) where
  join_eq := rfl
  proper p hp := h.proper p (List.mem_cons_of_mem _ hp)
  lead := h.after m after marks (List.suffix_refl _)
  after m' after' later hsuffix := h.after m' after' later (hsuffix.trans (List.suffix_cons _ _))

/-- What is clear of placeholders is passed over. -/
theorem Clear.scan_join (h : Clear ⟨lead, marks⟩) :
    scan (join render ⟨lead, marks⟩) =
      ⟨lead ++ (scan (join render ⟨[], marks⟩)).lead, (scan (join render ⟨[], marks⟩)).marks⟩ := by
  induction lead with
  | nil => rfl
  | cons c lead ih =>
    obtain ⟨hread, hclear⟩ := clear_cons_iff.1 h
    have hscan := scan_cons_none hread
    rw [ih hclear] at hscan
    exact hscan

theorem Cuts.eq_scan (h : t.Cuts s) : t = scan s := by
  obtain ⟨lead, marks⟩ := t
  rw [← h.join_eq]
  induction marks generalizing lead s with
  | nil =>
    rw [h.lead.scan_join, join, List.flatMap_nil, List.append_nil, scan, List.append_nil]
  | cons p marks ih =>
    obtain ⟨m, after⟩ := p
    rw [h.lead.scan_join, join_cons, List.nil_append, scan_render (h.proper _ List.mem_cons_self),
      ← ih after h.tail, List.append_nil]

/-- A text is cut at its placeholders in one way, which is how it is scanned. -/
theorem cuts_iff : t.Cuts s ↔ t = scan s := by
  refine ⟨Cuts.eq_scan, ?_⟩
  rintro rfl
  exact cuts_scan s

/-! ### Placeholders that are not taken -/

/-- Every placeholder is one that is taken or the end of one. -/
theorem Cuts.exists_begins (h : t.Cuts s) {before : List Char} (hm : m.OccursAfter before s) :
    ∃ taken start u, t.Begins start taken ∧ before = start ++ u ∧ taken.render = u ++ m.render := by
  obtain ⟨lead, marks⟩ := t
  rw [← h.join_eq] at hm
  have hle := h.lead m before hm
  induction marks generalizing lead s before with
  | nil =>
    -- There is no room after the lead.
    have hlen := hm.isPrefix.length_le
    simp only [join, List.flatMap_nil, List.append_nil, List.length_append, render_eq_append,
      List.length_singleton] at hlen hle
    omega
  | cons p marks ih =>
    obtain ⟨m', after⟩ := p
    rw [join_cons] at hm
    -- It does not start in the lead, so it starts in the mark that follows or after that.
    obtain ⟨u, rfl, hu⟩ := hm.exists_eq_append hle
    rcases Nat.lt_or_ge u.length m'.render.length with hlt | hge
    · exact ⟨m', lead, u, ⟨[], after, marks, rfl, (List.append_nil lead).symm⟩, rfl,
        hu.render_eq (h.proper _ List.mem_cons_self) hlt⟩
    · obtain ⟨v, rfl, hv⟩ := hu.exists_eq_append hge
      obtain ⟨taken, start, w, hbegins, rfl, hend⟩ :=
        ih after hv h.tail (h.tail.lead m v hv)
      exact ⟨taken, _, w, hbegins.cons, by simp, hend⟩

end Scanned

/-! ## Conditions -/

/-- To write something for each character of a kind is to cut the text at them and to put it between
the pieces. -/
theorem flatMap_eq_intercalate_splitOn (x : Char) (written s : List Char) :
    s.flatMap (fun c => if c = x then written else [c]) = written.intercalate (s.splitOn x) := by
  induction s with
  | nil => rfl
  | cons c s ih =>
    obtain ⟨piece, later, hsplit⟩ := List.exists_cons_of_ne_nil (List.splitOn_ne_nil x s)
    have hcons : (c :: s).splitOn x = if c == x then [] :: s.splitOn x else
        (s.splitOn x).modifyHead (c :: ·) := List.splitOnP_cons_eq_if_modifyHead c s
    rw [List.flatMap_cons, ih, hcons, hsplit]
    by_cases hc : c = x
    · rw [if_pos hc, if_pos (beq_iff_eq.2 hc), List.intercalate_cons_cons, List.nil_append]
    · rw [if_neg hc, if_neg (by simpa using hc), List.modifyHead_cons]
      cases later with
      | nil => rw [List.intercalate_singleton, List.intercalate_singleton]; rfl
      | cons next later =>
        rw [List.intercalate_cons_cons, List.intercalate_cons_cons]
        rfl

theorem Parameters.get?_eq_none {p : Parameters} {name : String} (h : name ∉ p.names) :
    p.get? name = none :=
  Option.eq_none_iff_forall_ne_some.2 fun _ hget => h (mem_names_of_get? hget)

namespace Condition

theorem literal_eq_intercalate (value : String) :
    literal value = '\'' :: ['\'', '\''].intercalate (value.toList.splitOn '\'') ++ ['\''] := by
  rw [literal, flatMap_eq_intercalate_splitOn]

/-- The text of a condition, wherever it comes from, is cut at placeholders in one way. Those are
the ones whose names are listed, and every other placeholder in the text is the end of one of them.
Where the values are written in, a placeholder is replaced by the value that is bound to its name,
in quotes and with its own quotes doubled, and stays as it is if none is; the text between them is
kept. -/
theorem exists_unique_cut (c : Condition) :
    ∃ t r, (t.Cuts c.sqlText.toList ∧ ∀ t', Scanned.Cuts t' c.sqlText.toList → t' = t) ∧
      (∀ m before, Mark.OccursAfter m before c.sqlText.toList → ∃ taken start u,
        t.Begins start taken ∧ before = start ++ u ∧ taken.render = u ++ m.render) ∧
      c.placeholders = t.marks.map (fun p => String.ofList p.1.name) ∧
      c.inlined.toList = t.join r ∧
      (∀ m value, (String.ofList m.name, value) ∈ c.parameters.entries →
        r m = '\'' :: ['\'', '\''].intercalate (value.toList.splitOn '\'') ++ ['\'']) ∧
      ∀ m, String.ofList m.name ∉ c.parameters.names → r m = m.render := by
  have hcuts : (scan c.sqlText.toList).Cuts c.sqlText.toList := Scanned.cuts_iff.2 rfl
  refine ⟨_, _, ⟨hcuts, fun t' => Scanned.cuts_iff.1⟩, fun m before => hcuts.exists_begins, rfl,
    String.toList_ofList, fun m value hvalue => ?_, fun m hname => ?_⟩
  · simp only [Parameters.get?_of_mem hvalue]
    exact literal_eq_intercalate value
  · simp only [Parameters.get?_eq_none hname]

/-- A number sign before a placeholder, one without a name, and one opened in another name. -/
example :
    let c : Condition :=
      ⟨"##\x7ba.b\x7d #\x7ba.\x7d #\x7ba.#\x7bb.c\x7d", .ofList [("b", "'")], "a"⟩
    c.placeholders = ["b", "#\x7bb.c"] ∧
      c.inlined = "#'''' #\x7ba.\x7d #\x7ba.#\x7bb.c\x7d" := by
  decide +kernel

end Condition

end SearchFilter
