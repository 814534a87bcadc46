import SearchFilter.Proofs.Compile.Reading
import SearchFilter.Proofs.Compile.Rejection

/-!
# The values of compiled expressions

Which values the terms of an expression are rendered as, and which placeholders refer to them: the
`k`-th value, from left to right, is bound to the name of its column with `k` after it, and to no
other name.

Main statement: `Expression.placeholders_of_compile`.
-/

namespace SearchFilter

open Piece Sql

variable {d : Dialect} {ns : String}

theorem exists_mem_atoms_of_map_eq {α β γ : Type} {f : α → γ} {g : β → γ} {t : TokenTree α}
    {u : TokenTree β} (h : TokenTree.map f t = TokenTree.map g u) {a : List (Token α)}
    (ha : a ∈ t.atoms) : ∃ b ∈ u.atoms, a.map (Token.map f) = b.map (Token.map g) := by
  have hmem := List.mem_map_of_mem (f := List.map (Token.map f)) ha
  have hatoms := congrArg Tree.atoms h
  rw [TokenTree.map, TokenTree.map, Tree.atoms_map, Tree.atoms_map] at hatoms
  rw [hatoms] at hmem
  obtain ⟨b, hb, heq⟩ := List.mem_map.1 hmem
  exact ⟨b, hb, heq.symm⟩

/-! ## The values of terms -/

namespace Column

/-- The texts by which a term is searched for in a text column. -/
def searchValues (d : Dialect) : Scalar → List String
  | .null => []
  | .text p =>
    match d with
    | .postgres => p.query.texts
    | .h2 => [p.containing]

/-- The values that terms are rendered as, each with the column it is compared with: their own
texts where values are compared as a whole or with a regular expression, else a pattern or the
texts to search for. -/
def rendered (d : Dialect) (c : Column) (op : Operand) (first : Scalar) (rest : List Scalar) :
    List Slot :=
  if op = .regex then
    ((first :: rest).filterMap Scalar.value?).map fun value =>
      ⟨(c.regexColumn? d).getD c.matched, value⟩
  else if op ≠ .any ∧ c.comparesWhole first rest = true then
    ((first :: rest).filterMap Scalar.value?).map fun value => ⟨c.compared, value⟩
  else
    match c.dotted? d first rest with
    | some (column, pattern) => [⟨column, pattern⟩]
    | none => ((first :: rest).flatMap (searchValues d)).map fun value => ⟨c.matched, value⟩

variable {c : Column} {op : Operand} {first : Scalar} {rest : List Scalar} {f : Fragment}

theorem slots_searchTest (negated : Bool) (s : Scalar) :
    (c.searchTest d negated s).comparison.slots =
      (searchValues d s).map fun value => ⟨c.matched, value⟩ := by
  cases s with
  | null => rfl
  | text p => cases d <;> rfl

theorem not_any_and_comparesWhole (h : op ≠ .any → c.comparesWhole first rest = false) :
    ¬ (op ≠ .any ∧ c.comparesWhole first rest = true) := by
  rintro ⟨hany, hwhole⟩
  rw [h hany] at hwhole
  cases hwhole

/-- The slots of a fragment hold the values that the terms are rendered as. -/
theorem Renders.slots_eq (h : c.Renders d op first rest f) :
    f.slots = c.rendered d op first rest := by
  unfold rendered
  cases h with
  | whole hop hw =>
    have hregex : op ≠ .regex := by rcases hop with rfl | rfl <;> decide
    have hany : op ≠ .any := by rcases hop with rfl | rfl <;> decide
    rw [if_neg hregex, if_pos ⟨hany, hw⟩]
    cases first <;> rfl
  | membership hw hrest =>
    rw [if_neg (by decide), if_pos ⟨by decide, hw⟩, filterMap_value?_cons_text,
      filterMap_value?_of_texts? hrest]
    exact List.append_nil _
  | regex hr =>
    rw [if_pos rfl, hr]
    rfl
  | dotted hop hw hd =>
    rw [if_neg hop, if_neg (not_any_and_comparesWhole hw), hd]
    rfl
  | search hop hw hd =>
    rw [if_neg hop, if_neg (not_any_and_comparesWhole hw), hd, Fragment.slots, Fragment.tests,
      List.flatMap_cons, List.flatMap_map, slots_searchTest]
    simp only [slots_searchTest]
    rw [← List.map_flatMap, ← List.map_append, ← List.flatMap_cons]

end Column

namespace Predicate

variable {p : Predicate}

/-- The values that a predicate's terms are rendered as. Blank terms do not count. -/
def slots (d : Dialect) (p : Predicate) : List Slot :=
  match d.column? p.field, p.effective with
  | some c, first :: rest => c.rendered d p.operand first rest
  | _, _ => []

theorem slots_of_rendered {f : Fragment} (h : p.outcome d = .rendered f) :
    f.slots = p.slots d := by
  obtain ⟨c, first, rest, hc, he, hr⟩ := exists_of_outcome_eq_rendered h
  unfold slots
  rw [hc, he, hr.slots_eq]

end Predicate

namespace Expression

variable {e : Expression} {c : Condition}

/-- The values that an expression is rendered with, from left to right. Predicates that restrict
nothing have no part in them. -/
def slots (d : Dialect) (e : Expression) : List Slot :=
  (e.atoms.filter fun p => ¬ p.Dropped d).flatMap (Predicate.slots d)

theorem flatMap_slots_filterMap {ps : List Predicate}
    (h : ∀ p ∈ ps, (p.outcome d).issue? = none) :
    (ps.filterMap fun p => (p.outcome d).fragment?).flatMap Fragment.slots =
      (ps.filter fun p => ¬ p.Dropped d).flatMap (Predicate.slots d) := by
  induction ps with
  | nil => rfl
  | cons p ps ih =>
    rw [List.forall_mem_cons] at h
    by_cases hd : p.Dropped d
    · simp only [List.filterMap_cons, Predicate.fragment?_of_dropped hd]
      rw [ih h.2, List.filter_cons_of_neg (by simpa using hd)]
    · obtain ⟨f, hf⟩ := Predicate.exists_rendered h.1 hd
      have hsome : (p.outcome d).fragment? = some f := by
        rw [hf]
        rfl
      simp only [List.filterMap_cons, hsome]
      rw [List.flatMap_cons, ih h.2, List.filter_cons_of_pos (by simpa using hd),
        List.flatMap_cons, Predicate.slots_of_rendered hf]

theorem slots_pieces (h : ∀ p ∈ e.atoms, (p.outcome d).issue? = none) :
    Piece.slots (e.pieces d) = e.slots d := by
  unfold pieces slots
  rw [← flatMap_slots_filterMap h]
  cases hf : e.filter? d with
  | none =>
    rw [List.filterMap_eq_nil_iff.2 (Formula.prune_eq_none_iff.1 hf)]
    rfl
  | some f => rw [← Formula.atoms_of_prune hf, Filter.slots_pieces]

theorem tidy_pieces (d : Dialect) (e : Expression) : Tidy (e.pieces d) := by
  unfold pieces
  cases hf : e.filter? d with
  | none => exact ⟨by simp, .nil⟩
  | some f => exact Filter.tidy_pieces (columns_of_filter? hf)

theorem spaced_pieces (d : Dialect) (e : Expression) : Spaced (e.pieces d) := by
  unfold pieces
  cases hf : e.filter? d with
  | none => exact .nil
  | some f => exact Filter.spaced_pieces (columns_of_filter? hf)

theorem columns_of_mem_slots (d : Dialect) (e : Expression) :
    ∀ s ∈ Piece.slots (e.pieces d), s.column ∈ columnNames := by
  unfold pieces
  cases hf : e.filter? d with
  | none => simp [Piece.slots]
  | some f => exact Filter.columns_of_mem_slots (columns_of_filter? hf)

/-- In any namespace, nothing is written just when every predicate is dropped. -/
theorem sqlText_eq_empty_iff_forall_dropped (h : e.compile d ns = .ok c) :
    c.sqlText = "" ↔ ∀ p ∈ e.atoms, p.Dropped d := by
  obtain ⟨hissues, rfl⟩ := compile_eq_ok_iff.1 h
  rw [sqlText_ofPieces_eq_empty_iff ns (e.tidy_pieces d) (e.columns_of_mem_slots d),
    ← filter?_eq_none_iff hissues]
  unfold pieces
  cases hf : e.filter? d with
  | none => simp
  | some f => simp [Filter.pieces_ne_nil (columns_of_filter? hf)]

/-- Every comparison in the text names one column, and its placeholders are named by it. -/
theorem exists_column_of_mem_atoms (hns : isIdentifier ns.toList = true)
    (h : e.compile d ns = .ok c) {t : TokenTree Mark} (ht : Sql.read c.sqlText = some t)
    {a : List (Token Mark)} (ha : a ∈ t.atoms) :
    ∃ column ∈ columnNames, Sql.names a = [column.toList] ∧
      ∀ m ∈ holes a, m.column? = some column ∧ String.ofList m.name ∈ c.parameters.names := by
  obtain ⟨hissues, rfl⟩ := compile_eq_ok_iff.1 h
  have hreading : Condition.reading _ = some _ := Condition.reading_eq_some_iff.2 ⟨t, ht, rfl⟩
  cases hf : e.filter? d with
  | none => exact absurd (sqlText_eq_empty_of_filter? hf) (sqlText_ne_empty hreading)
  | some f =>
    rw [reading_of_filter? hns hf, Option.some.injEq] at hreading
    obtain ⟨b, hb, heq⟩ := exists_mem_atoms_of_map_eq hreading.symm ha
    obtain ⟨column, hcolumn, habout⟩ := Filter.exists_about (columns_of_filter? hf) b hb
    refine ⟨column, hcolumn, ?_, fun m hm => ?_⟩
    · rw [← names_map, heq, names_map, habout.names_eq]
    · have hmem := List.mem_map_of_mem (f := (Condition.ofPieces ns (e.pieces d)).slot?) hm
      rw [← holes_map, heq, holes_map] at hmem
      obtain ⟨s, hs, hslot⟩ := List.mem_map.1 hmem
      obtain ⟨hname, hvalue⟩ := Condition.slot?_eq_some hslot.symm
      rw [habout.columns s hs] at hname
      exact ⟨hname, Parameters.mem_names_of_get? hvalue⟩

theorem column_mem_of_mem_slots (h : e.compile d ns = .ok c) :
    ∀ s ∈ e.slots d, s.column ∈ columnNames := by
  rw [← slots_pieces (compile_eq_ok_iff.1 h).1]
  exact e.columns_of_mem_slots d

theorem placeholders_eq_names (hns : isIdentifier ns.toList = true)
    (h : e.compile d ns = .ok c) : c.placeholders = Slot.names (e.slots d) := by
  obtain ⟨hissues, rfl⟩ := compile_eq_ok_iff.1 h
  rw [← slots_pieces hissues]
  exact Condition.placeholders_ofPieces hns (e.tidy_pieces d) (e.columns_of_mem_slots d)

theorem entries_eq (h : e.compile d ns = .ok c) :
    c.parameters.entries = Slot.entries (e.slots d) := by
  obtain ⟨hissues, rfl⟩ := compile_eq_ok_iff.1 h
  rw [← slots_pieces hissues]
  exact Condition.entries_ofPieces ns (e.columns_of_mem_slots d)

theorem parameters_names_eq (h : e.compile d ns = .ok c) :
    c.parameters.names = Slot.names (e.slots d) := by
  rw [Parameters.names, entries_eq h, Slot.map_fst_entries]

theorem get?_of_getElem?_slots (h : e.compile d ns = .ok c) {k : ℕ} {s : Slot}
    (hs : (e.slots d)[k]? = some s) :
    c.parameters.get? (numbered s.column k) = some s.value := by
  refine Parameters.get?_of_mem ?_
  rw [entries_eq h]
  exact Condition.mem_entries (List.mk_mem_zipIdx_iff_getElem?.2 hs)

theorem exists_index_of_column? {l : List Slot} (hl : ∀ s ∈ l, s.column ∈ columnNames) {m : Mark}
    {column : String} (hm : m.column? = some column) (hmem : String.ofList m.name ∈ Slot.names l) :
    ∃ k : ℕ, (Slot.names l)[k]? = some (String.ofList m.name) ∧
      String.ofList m.name = numbered column k := by
  obtain ⟨k, hk⟩ := List.mem_iff_getElem?.1 hmem
  refine ⟨k, hk, ?_⟩
  rw [Slot.names, List.getElem?_mapIdx, Option.map_eq_some_iff] at hk
  obtain ⟨s, hs, heq⟩ := hk
  have hmark : m = ⟨m.ns, (numbered s.column k).toList⟩ := by
    rw [heq, String.toList_ofList]
  rw [hmark, Mark.column?_numbered (hl s (List.mem_of_getElem? hs)), Option.some.injEq] at hm
  rw [← heq, hm]

/-- The placeholders of a compiled expression, in order of appearance, are those of its values: the
`k`-th is named by its column and `k`, it alone is bound to the `k`-th value, and it stands in a
comparison of that column. -/
theorem placeholders_of_compile (hns : isIdentifier ns.toList = true)
    (h : e.compile d ns = .ok c) :
    c.placeholders.Nodup ∧ (∀ name, name ∈ c.placeholders ↔ name ∈ c.parameters.names) ∧
    c.placeholders = (e.slots d).mapIdx (fun k s => numbered s.column k) ∧
    c.parameters.entries = (e.slots d).mapIdx (fun k s => (numbered s.column k, s.value)) ∧
    (∀ (k : ℕ) (s : Slot), (e.slots d)[k]? = some s →
      c.placeholders[k]? = some (numbered s.column k) ∧
      c.parameters.get? (numbered s.column k) = some s.value) ∧
    ∀ t, Sql.read c.sqlText = some t → ∀ a ∈ t.atoms, ∃ column, Sql.names a = [column.toList] ∧
      ∀ m ∈ holes a, ∃ k : ℕ, c.placeholders[k]? = some (String.ofList m.name) ∧
        String.ofList m.name = numbered column k := by
  have hcols := column_mem_of_mem_slots h
  have hplaceholders := placeholders_eq_names hns h
  have hnames := parameters_names_eq h
  refine ⟨?_, fun name => ?_, hplaceholders, entries_eq h, fun k s hs => ?_, fun t ht a ha => ?_⟩
  · rw [hplaceholders]
    exact Slot.names_nodup hcols
  · rw [hplaceholders, hnames]
  · refine ⟨?_, get?_of_getElem?_slots h hs⟩
    rw [hplaceholders, Slot.names, List.getElem?_mapIdx, hs, Option.map_some]
  · obtain ⟨column, -, hname, hholes⟩ := exists_column_of_mem_atoms hns h ht ha
    refine ⟨column, hname, fun m hm => ?_⟩
    obtain ⟨hmark, hmem⟩ := hholes m hm
    rw [hplaceholders]
    exact exists_index_of_column? hcols hmark (hnames ▸ hmem)

theorem placeholders_of_compile_digits :
    ∃ c, compile .postgres "p" (.clause .or (compare .sha1 .eq (.exact "a"))
        [compare .md5 .eq (.exact " "), compare .sha1 .eq (.exact "b"),
          compare .sha1 .oneOf (.exactValues ["c", "d"])]) = .ok c ∧
      c.placeholders = ["sha10", "sha11", "sha12", "sha13"] ∧
      c.parameters.get? "sha12" = some "c" := by
  refine Exists.imp (fun c hok => ⟨hok, ?_⟩) ⟨_, compile_eq_ok_iff.2 ⟨by decide +kernel, rfl⟩⟩
  obtain ⟨-, -, hnames, -, hvalues, -⟩ := placeholders_of_compile (by decide) hok
  exact ⟨hnames.trans (by decide +kernel),
    (hvalues 2 ⟨"sha1", "c"⟩ (by decide +kernel)).2⟩

end Expression

end SearchFilter
