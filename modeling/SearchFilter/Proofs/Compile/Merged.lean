import SearchFilter.Proofs.Compile.Restriction
import SearchFilter.Proofs.Condition.Bare
import SearchFilter.Proofs.Formula.Merged
import SearchFilter.Proofs.Formula.Normal

/-!
# Merged expressions

Expressions are joined in one clause, or they are merged into one, with the clauses of the same
connective among them opened. Either way the same predicates are compiled in the same order, and all
that can differ in the text is where the parentheses stand.

Main statement: `Expression.compile_flatten`.
-/

namespace SearchFilter

open Piece

variable {d : Dialect} {ns : String}

theorem Filter.bare_pieces_clause (op : Connective) (first : Filter) (rest : List Filter) :
    bare (Filter.pieces d (.clause op first rest)) =
      (rest.map fun f => bare (Filter.pieces d f)).foldl (joined op.joiner)
        (bare (Filter.pieces d first)) := by
  have hjoiner : text op.joiner ∉ [text "(", text ")"] := by cases op <;> decide
  rw [Filter.pieces_clause, bare_parenthesized, bare_separated hjoiner, separated_eq_foldl,
    List.map_map]
  rfl

namespace Expression

theorem bare_pieces (e : Expression) :
    bare (e.pieces d) = ((e.filter? d).map fun f => bare (Filter.pieces d f)).getD [] := by
  unfold pieces
  cases e.filter? d <;> rfl

variable {op : Connective} {first : Expression} {rest : List Expression}

theorem bare_pieces_flatten :
    bare (pieces d (Formula.flatten op first rest)) =
      bare (pieces d (.clause op first rest)) := by
  rw [bare_pieces, bare_pieces]
  exact congrArg (Option.getD · []) (Formula.map_prune_flatten (Filter.bare_pieces_clause op) _
    first rest)

theorem issues_flatten_eq_clause :
    issues d (Formula.flatten op first rest) = issues d (.clause op first rest) := by
  unfold issues
  rw [Formula.atoms_flatten, Formula.atoms_clause, List.flatMap_cons]

theorem sameBare_flatten {c c' : Condition}
    (h : compile d ns (Formula.flatten op first rest) = .ok c)
    (h' : compile d ns (.clause op first rest) = .ok c') : c.SameBare c' := by
  obtain ⟨-, rfl⟩ := compile_eq_ok_iff.1 h
  obtain ⟨-, rfl⟩ := compile_eq_ok_iff.1 h'
  exact Condition.sameBare_ofPieces ns bare_pieces_flatten

theorem truth?_flatten (hns : isIdentifier ns.toList = true) {c c' : Condition}
    (h : compile d ns (Formula.flatten op first rest) = .ok c)
    (h' : compile d ns (.clause op first rest) = .ok c')
    (w : List (Sql.Token (Option Slot)) → Sql.Truth) : c.truth? w = c'.truth? w := by
  rw [truth?_eq_remaining hns h, truth?_eq_remaining hns h', Formula.remaining_flatten]

/-- Merged expressions have the issues of the clause over them, or both have a condition. -/
theorem compile_flatten_cases (d : Dialect) (ns : String) (op : Connective) (first : Expression)
    (rest : List Expression) :
    (∃ invalid, compile d ns (Formula.flatten op first rest) = .error invalid ∧
      compile d ns (.clause op first rest) = .error invalid) ∨
    ∃ c c', compile d ns (Formula.flatten op first rest) = .ok c ∧
      compile d ns (.clause op first rest) = .ok c' ∧ c.SameBare c' ∧
      (isIdentifier ns.toList = true → ∀ w, c.truth? w = c'.truth? w) := by
  have hissues : issues d (Formula.flatten op first rest) = issues d (.clause op first rest) :=
    issues_flatten_eq_clause
  by_cases hclean : issues d (.clause op first rest) = []
  · obtain ⟨c, hc⟩ := exists_compile_eq_ok_iff.2 (hissues.trans hclean)
    obtain ⟨c', hc'⟩ := exists_compile_eq_ok_iff.2 hclean
    exact .inr ⟨c, c', hc, hc', sameBare_flatten hc hc', fun hns => truth?_flatten hns hc hc'⟩
  · exact .inl ⟨⟨_⟩, compile_eq_error_iff.2 ⟨hissues ▸ hclean, hissues.symm⟩,
      compile_eq_error_iff.2 ⟨hclean, rfl⟩⟩

/-- To merge no expressions is an error. Otherwise what is merged is compiled as the clause over the
expressions is: with the same issues, or with the same parameters, the same text but for
parentheses, and the same truth values. It has the values of the clause, also when some predicates
are left out of both; and merged expressions in normal form are in normal form. -/
theorem compile_flatten (op : Connective) (es : List Expression) :
    (∀ cause, Formula.flatten? op es = .error cause ↔ es = [] ∧ cause = ⟨op⟩) ∧
    (es ≠ [] → ∃ merged plain : Expression, Formula.flatten? op es = .ok merged ∧
      Formula.ofChildren? op es = .ok plain ∧
      (∀ (d : Dialect) (ns : String),
        (∃ invalid, merged.compile d ns = .error invalid ∧ plain.compile d ns = .error invalid) ∨
        ∃ c c', merged.compile d ns = .ok c ∧ plain.compile d ns = .ok c' ∧ c.SameBare c' ∧
          (isIdentifier ns.toList = true → ∀ w, c.truth? w = c'.truth? w)) ∧
      (∀ (L : Type) [Lattice L] (v : Predicate → L), merged.value v = plain.value v) ∧
      (∀ (L : Type) [Lattice L] (v : Predicate → L) (kept : Predicate → Prop) [DecidablePred kept],
        (merged.sift kept).map (Formula.value v) = (plain.sift kept).map (Formula.value v)) ∧
      ((∀ e ∈ es, e.IsNormal) → merged.IsNormal)) := by
  cases es with
  | nil =>
    refine ⟨fun cause => ?_, fun h => absurd rfl h⟩
    simp [Formula.flatten?, eq_comm]
  | cons first rest =>
    refine ⟨fun cause => ⟨nofun, fun h => nomatch h.1⟩, fun _ => ?_⟩
    exact ⟨Formula.flatten op first rest, .clause op first rest, rfl, rfl,
      fun d ns => compile_flatten_cases d ns op first rest,
      fun L _ v => Formula.value_flatten v op first rest,
      fun L _ v kept _ => Formula.map_value_sift_flatten v kept op first rest,
      Formula.isNormal_flatten⟩

-- The inner clause keeps its parentheses, though a blank text has left it a single child.
example :
    let inner : Expression := .clause .and (compare .format .eq (.exact " "))
      [compare .md5 .eq (.exact "a")]
    let outer := compare .format .eq (.exact "raw")
    (compile .h2 "f" (Formula.flatten .and outer [inner])).toOption.map (·.sqlText) =
        some "(format = #{f.format0} AND md5 = #{f.md51})" ∧
      (compile .h2 "f" (.clause .and outer [inner])).toOption.map (·.sqlText) =
        some "(format = #{f.format0} AND (md5 = #{f.md51}))" := by
  decide +kernel

end Expression

end SearchFilter
