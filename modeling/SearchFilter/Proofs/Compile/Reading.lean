import SearchFilter.Compile
import SearchFilter.Proofs.Compile.Text
import SearchFilter.Proofs.Condition.Reading
import SearchFilter.Proofs.Formula.Sift

/-!
# What compiled expressions say

The text of a compiled expression, read with the precedence of SQL, is the expression without the
predicates that restrict nothing; every other predicate says there what it says alone. Placeholders
are numbered through the whole text, so that only their numbers depend on what stands before.

Main statement: `Expression.read_sqlText_of_compile`.
-/

namespace SearchFilter

open Piece Sql

variable {d : Dialect} {ns : String}

/-! ## Conditions of filters -/

theorem Filter.readTokens_pieces {f : Filter} (h : ∀ g ∈ f.atoms, g.columns ⊆ columnNames) :
    readTokens (allTokens (f.pieces d)) = some (f.tree d) :=
  (Filter.isOperand_pieces h).readTokens_eq

theorem Filter.pieces_ne_nil {f : Filter} (h : ∀ g ∈ f.atoms, g.columns ⊆ columnNames) :
    f.pieces d ≠ [] := by
  intro hnil
  have hread := readTokens_pieces (d := d) h
  rw [hnil] at hread
  cases hread

/-- The condition of a filter says what the filter says. -/
theorem Filter.reading_ofPieces (hns : isIdentifier ns.toList = true) {f : Filter}
    (h : ∀ g ∈ f.atoms, g.columns ⊆ columnNames) :
    (Condition.ofPieces ns (f.pieces d)).reading = some (TokenTree.map some (f.tree d)) := by
  have htidy : Tidy (f.pieces d) := Filter.tidy_pieces h
  rw [Condition.reading_ofPieces hns htidy (Filter.columns_of_mem_slots h),
    Filter.readTokens_pieces h, Option.map_some]

theorem Filter.outermost_ofPieces (hns : isIdentifier ns.toList = true) {f : Filter}
    (h : ∀ g ∈ f.atoms, g.columns ⊆ columnNames) :
    ∀ t ∈ outermost 0 (Sql.tokens (Condition.ofPieces ns (f.pieces d)).sqlText),
      ∀ op : Connective, t.isWord op.name = false := by
  have htokens := Condition.tokens_map_slot? hns (Filter.tidy_pieces (d := d) h)
    (Filter.columns_of_mem_slots h)
  intro t ht op
  have hmem := List.mem_map_of_mem (f := Token.map (Condition.ofPieces ns (f.pieces d)).slot?) ht
  rw [← outermost_map, htokens, outermost_map] at hmem
  obtain ⟨u, hu, heq⟩ := List.mem_map.1 hmem
  rw [← Token.isWord_map, ← heq, Token.isWord_map]
  exact (Filter.isOperand_pieces h).outermost u hu op

/-! ## Predicates -/

namespace Predicate

variable {p : Predicate}

/-- What a predicate that is rendered is read as. -/
def tree (d : Dialect) (p : Predicate) : TokenTree Slot :=
  match p.outcome d with
  | .rendered f => f.tree d
  | .dropped | .rejected _ => .atom []

theorem fragment?_of_dropped (h : p.Dropped d) : (p.outcome d).fragment? = none := by
  rw [outcome_eq_dropped_iff.2 h]
  rfl

/-- A predicate that is neither rejected nor dropped is rendered. -/
theorem exists_rendered (hissue : (p.outcome d).issue? = none) (h : ¬ p.Dropped d) :
    ∃ f, p.outcome d = .rendered f := by
  cases ho : p.outcome d with
  | dropped => exact absurd (outcome_eq_dropped_iff.1 ho) h
  | rejected i =>
    rw [ho] at hissue
    cases hissue
  | rendered f => exact ⟨f, rfl⟩

end Predicate

/-! ## Expressions -/

namespace Expression

variable {e : Expression} {c : Condition}

/-- What is left of an expression without the predicates that restrict nothing. -/
def surviving (d : Dialect) (e : Expression) : Option Expression := e.sift fun p => ¬ p.Dropped d

theorem compile_eq_ok_iff :
    e.compile d ns = .ok c ↔
      (∀ p ∈ e.atoms, (p.outcome d).issue? = none) ∧ c = .ofPieces ns (e.pieces d) := by
  rw [← List.filterMap_eq_nil_iff]
  unfold compile issues
  cases e.atoms.filterMap fun p => (p.outcome d).issue? with
  | nil => simp [eq_comm]
  | cons i rest => simp

theorem exists_compile_eq_ok_iff : (∃ c, e.compile d ns = .ok c) ↔ e.issues d = [] := by
  unfold compile
  cases e.issues d <;> simp

theorem compile_eq_error_iff {invalid : InvalidExpression} :
    e.compile d ns = .error invalid ↔ e.issues d ≠ [] ∧ invalid.issues = e.issues d := by
  obtain ⟨told⟩ := invalid
  unfold compile
  cases e.issues d with
  | nil => simp
  | cons i rest => simp [eq_comm]

theorem filter?_eq_none_iff (h : ∀ p ∈ e.atoms, (p.outcome d).issue? = none) :
    e.filter? d = none ↔ ∀ p ∈ e.atoms, p.Dropped d := by
  unfold filter?
  rw [Formula.prune_eq_none_iff]
  refine forall₂_congr fun p hp => ?_
  constructor
  · intro hf
    by_contra hd
    obtain ⟨f, hr⟩ := Predicate.exists_rendered (h p hp) hd
    rw [hr] at hf
    cases hf
  · exact Predicate.fragment?_of_dropped

theorem columns_of_filter? {f : Filter} (h : e.filter? d = some f) :
    ∀ g ∈ f.atoms, g.columns ⊆ columnNames := by
  rw [Formula.atoms_of_prune h]
  intro g hg
  obtain ⟨p, -, hp⟩ := List.mem_filterMap.1 hg
  exact Predicate.columns_subset_of_rendered (Outcome.fragment?_eq_some_iff.1 hp)

/-- The filter of an expression has the tree of what is left of the expression. -/
theorem map_tree_filter? (h : ∀ p ∈ e.atoms, (p.outcome d).issue? = none) :
    (e.filter? d).map (Filter.tree d) = (e.surviving d).map (Tree.graft (Predicate.tree d)) := by
  refine Formula.map_fold_prune (fun p _ hp => ?_) fun p hp hkept => ?_
  · exact Predicate.fragment?_of_dropped (not_not.1 hp)
  · obtain ⟨f, hf⟩ := Predicate.exists_rendered (h p hp) hkept
    rw [hf, Predicate.tree, hf]
    rfl

theorem sqlText_eq_empty_of_filter? (h : e.filter? d = none) :
    (Condition.ofPieces ns (e.pieces d)).sqlText = "" := by
  unfold pieces
  rw [h]
  rfl

theorem sqlText_ne_empty {t : TokenTree (Option Slot)} (h : c.reading = some t) :
    c.sqlText ≠ "" := by
  intro hempty
  rw [Condition.reading, hempty, Sql.read, tokens_empty] at h
  cases h

theorem filter?_of_rendered {p : Predicate} {f : Fragment} (h : p.outcome d = .rendered f) :
    filter? d (.atom p) = some (.atom f) := by
  rw [filter?, Formula.prune_atom, h]
  rfl

/-- The condition of a predicate alone is made up of the pieces of its fragment. -/
theorem compile_of_rendered (ns : String) {p : Predicate} {f : Fragment}
    (h : p.outcome d = .rendered f) :
    compile d ns (.atom p) = .ok (.ofPieces ns (f.pieces d)) := by
  refine compile_eq_ok_iff.2 ⟨?_, ?_⟩
  · rw [Formula.atoms_atom, List.forall_mem_singleton, h]
    rfl
  · rw [pieces, filter?_of_rendered h]
    rfl

/-- The condition that a predicate has alone says what its fragment says. -/
theorem reading_of_rendered (hns : isIdentifier ns.toList = true) {p : Predicate} {f : Fragment}
    (h : p.outcome d = .rendered f) :
    ∃ own, compile d ns (.atom p) = .ok own ∧
      own.reading = some (TokenTree.map some (p.tree d)) := by
  refine ⟨_, compile_of_rendered ns h, ?_⟩
  rw [← Filter.pieces_atom,
    Filter.reading_ofPieces hns (columns_of_filter? (filter?_of_rendered h)), Predicate.tree, h]
  rfl

theorem reading_of_filter? (hns : isIdentifier ns.toList = true) {f : Filter}
    (h : e.filter? d = some f) :
    (Condition.ofPieces ns (e.pieces d)).reading = some (TokenTree.map some (f.tree d)) := by
  unfold pieces
  rw [h]
  exact Filter.reading_ofPieces hns (columns_of_filter? h)

/-- A compiled expression says nothing, or what is left of it. -/
theorem reading_of_compile (hns : isIdentifier ns.toList = true) (h : e.compile d ns = .ok c) :
    (∀ p ∈ e.atoms, p.Dropped d) ∧ c.sqlText = "" ∨
      ∃ s, e.surviving d = some s ∧
        c.reading = some (TokenTree.map some (Tree.graft (Predicate.tree d) s)) := by
  obtain ⟨hissues, rfl⟩ := compile_eq_ok_iff.1 h
  have htree := map_tree_filter? hissues
  cases hf : e.filter? d with
  | none => exact .inl ⟨(filter?_eq_none_iff hissues).1 hf, sqlText_eq_empty_of_filter? hf⟩
  | some f =>
    rw [hf, Option.map_some, eq_comm, Option.map_eq_some_iff] at htree
    obtain ⟨s, hs, hgraft⟩ := htree
    exact .inr ⟨s, hs, hgraft ▸ reading_of_filter? hns hf⟩

theorem surviving_eq_none_iff : e.surviving d = none ↔ ∀ p ∈ e.atoms, p.Dropped d := by
  unfold surviving
  rw [Formula.sift_eq_none_iff]
  simp only [not_not]

theorem sqlText_eq_empty_iff (hns : isIdentifier ns.toList = true) (h : e.compile d ns = .ok c) :
    c.sqlText = "" ↔ ∀ p ∈ e.atoms, p.Dropped d := by
  rcases reading_of_compile hns h with ⟨hall, hempty⟩ | ⟨s, hs, hr⟩
  · exact iff_of_true hempty hall
  · refine iff_of_false (sqlText_ne_empty hr) fun hall => ?_
    rw [surviving_eq_none_iff.2 hall] at hs
    cases hs

theorem outermost_of_compile (hns : isIdentifier ns.toList = true) (h : e.compile d ns = .ok c) :
    ∀ t ∈ outermost 0 (Sql.tokens c.sqlText), ∀ op : Connective, t.isWord op.name = false := by
  obtain ⟨-, rfl⟩ := compile_eq_ok_iff.1 h
  cases hf : e.filter? d with
  | none =>
    intro t ht
    rw [sqlText_eq_empty_of_filter? hf, tokens_empty] at ht
    cases ht
  | some f =>
    unfold pieces
    rw [hf]
    exact Filter.outermost_ofPieces hns (columns_of_filter? hf)

/-- A predicate of what is left says alone what it says in the text. -/
theorem agree_of_tree (hns : isIdentifier ns.toList = true)
    (hissues : ∀ p ∈ e.atoms, (p.outcome d).issue? = none) {s : Expression}
    (hs : e.surviving d = some s) {p : Predicate} (hp : p ∈ s.atoms) {t : TokenTree Mark}
    (ht : TokenTree.map c.slot? t = TokenTree.map some (p.tree d)) :
    ∃ own t', compile d ns (.atom p) = .ok own ∧ Sql.read own.sqlText = some t' ∧
      c.Agree t own t' := by
  obtain ⟨hpe, hkept⟩ := Formula.mem_atoms_of_sift hs hp
  obtain ⟨f, hf⟩ := Predicate.exists_rendered (hissues p hpe) hkept
  obtain ⟨own, hown, hreading⟩ := reading_of_rendered hns hf
  obtain ⟨t', hread, hmap⟩ := Condition.reading_eq_some_iff.1 hreading
  exact ⟨own, t', hown, hread, p.tree d, ht, hmap⟩

/-- The text of a compiled expression is empty just when every predicate is dropped. Otherwise it
says what is left of the expression, with each predicate as it is compiled alone, and it stays
whole wherever it is put. -/
theorem read_sqlText_of_compile (hns : isIdentifier ns.toList = true)
    (h : e.compile d ns = .ok c) :
    (c.sqlText = "" ↔ ∀ p ∈ e.atoms, p.Dropped d) ∧
    (c.sqlText ≠ "" → ∃ s, e.surviving d = some s ∧
      (∀ t ∈ outermost 0 (Sql.tokens c.sqlText), ∀ op : Connective, t.isWord op.name = false) ∧
      ∃ g : Formula (Predicate × TokenTree Mark),
        g.map Prod.fst = s ∧ Sql.read c.sqlText = some (Tree.graft Prod.snd g) ∧
        (∀ x ∈ g.atoms, ∃ own t, compile d ns (.atom x.1) = .ok own ∧
          Sql.read own.sqlText = some t ∧ c.Agree x.2 own t) ∧
        ∀ v, (Tree.graft Prod.snd g).value v = g.value fun x => x.2.value v) := by
  refine ⟨sqlText_eq_empty_iff hns h, fun hne => ?_⟩
  rcases reading_of_compile hns h with ⟨-, hempty⟩ | ⟨s, hs, hr⟩
  · exact absurd hempty hne
  · obtain ⟨t, hread, hmap⟩ := Condition.reading_eq_some_iff.1 hr
    rw [TokenTree.map, TokenTree.map, Tree.map_graft] at hmap
    obtain ⟨g, hg⟩ := Tree.exists_graftedBy hmap
    refine ⟨s, hs, outermost_of_compile hns h, g, hg.atoms_eq, hg.graft_eq ▸ hread, ?_,
      fun v => Tree.value_graft v Prod.snd g⟩
    intro x hx
    have hatom : x.1 ∈ s.atoms := by
      rw [← hg.atoms_eq, Formula.atoms_map]
      exact List.mem_map_of_mem hx
    exact agree_of_tree hns (compile_eq_ok_iff.1 h).1 hs hatom (hg.leaves x hx)

theorem read_sqlText_of_compile_blank_child :
    ∃ c, compile .postgres "p" (.clause .and (compare .format .eq (.exact "raw"))
        [.clause .or (compare .name .any (.lenient "a b"))
          [compare .version .eq (.exact " ")]]) = .ok c ∧
      ∃ g : Formula (Predicate × TokenTree Mark),
        g.map Prod.fst = .clause .and (compare .format .eq (.exact "raw"))
          [compare .name .any (.lenient "a b")] ∧
        Sql.read c.sqlText = some (Tree.graft Prod.snd g) := by
  refine Exists.imp (fun c hok => ⟨hok, ?_⟩) ⟨_, compile_eq_ok_iff.2 ⟨by decide +kernel, rfl⟩⟩
  obtain ⟨hempty, hread⟩ := read_sqlText_of_compile (by decide) hok
  obtain ⟨s, hs, -, g, hg, hr, -⟩ := hread fun h => absurd (hempty.1 h) (by decide +kernel)
  refine ⟨g, ?_, hr⟩
  rw [hg]
  exact Option.some.inj (hs.symm.trans (by decide +kernel))

end Expression

end SearchFilter
