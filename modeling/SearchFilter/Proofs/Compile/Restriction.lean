import SearchFilter.Proofs.Compile.Admission

/-!
# Searches restricted to a permission

A request is joined with a permission by `AND`, and the conjuncts of either side are merged into one
clause. Whatever the shapes of the two, the whole has a condition just when both have one, and it is
never weaker than the permission.

Main statement: `Expression.compile_restrict`.
-/

namespace SearchFilter.Expression

open Sql

variable {d : Dialect} {ns : String} {e : Expression} {c : Condition}
  {w : List (Token (Option Slot)) → Truth}

/-! ## Issues -/

/-- The issues that an expression is told to have when it is compiled. -/
def reported (d : Dialect) (ns : String) (e : Expression) : List Issue :=
  match e.compile d ns with
  | .ok _ => []
  | .error invalid => invalid.issues

theorem reported_eq_issues (d : Dialect) (ns : String) (e : Expression) :
    e.reported d ns = e.issues d := by
  unfold reported compile
  cases e.issues d <;> rfl

/-- The issues of merged clauses are those of their parts, in order. -/
theorem issues_flatten (op : Connective) (first : Expression) (rest : List Expression) :
    issues d (Formula.flatten op first rest) = (first :: rest).flatMap (issues d) := by
  unfold issues
  rw [Formula.atoms_flatten, List.filterMap_flatMap]

/-! ## Truth -/

theorem truth?_eq_remaining (hns : isIdentifier ns.toList = true) (h : e.compile d ns = .ok c) :
    c.truth? w = some (e.remaining (Predicate.Dropped d) (predicateTruth d w)) := by
  have hremaining : e.remaining (Predicate.Dropped d) (predicateTruth d w) =
      (e.surviving d).elim ⊤ (Formula.value (predicateTruth d w)) := rfl
  rw [truth?_of_compile hns h, hremaining]
  cases e.surviving d <;> rfl

/-! ## Restrictions -/

/-- A request can always be restricted to a permission. The whole has a condition just when both
have one, and it has the issues of the request followed by those of the permission. Its condition
has the lesser truth value of both, so that a row meets it just when it meets the conditions of the
request and of the permission. -/
theorem compile_restrict (hns : isIdentifier ns.toList = true) (d : Dialect)
    (request permission : Expression) :
    ∃ e, restrict (some request) (some permission) = some e ∧
      Formula.flatten? .and [request, permission] = .ok e ∧
      ((∃ c, e.compile d ns = .ok c) ↔
        (∃ c, request.compile d ns = .ok c) ∧ ∃ c, permission.compile d ns = .ok c) ∧
      (∀ invalid, e.compile d ns = .error invalid →
        invalid.issues = request.reported d ns ++ permission.reported d ns) ∧
      ∀ c a b, e.compile d ns = .ok c → request.compile d ns = .ok a →
        permission.compile d ns = .ok b → ∀ w : List (Token (Option Slot)) → Truth,
          (∃ x y, a.truth? w = some x ∧ b.truth? w = some y ∧ c.truth? w = some (x ⊓ y)) ∧
          (c.truth? w = some .yes ↔ a.truth? w = some .yes ∧ b.truth? w = some .yes) := by
  have hissues : issues d (request.flatten .and [permission]) =
      request.issues d ++ permission.issues d := by
    rw [issues_flatten, List.flatMap_cons, List.flatMap_singleton]
  refine ⟨request.flatten .and [permission], rfl, rfl, ?_, fun invalid hinvalid => ?_,
    fun c a b hc ha hb w => ?_⟩
  · simp only [exists_compile_eq_ok_iff, hissues, List.append_eq_nil_iff]
  · rw [(compile_eq_error_iff.1 hinvalid).2, hissues, reported_eq_issues, reported_eq_issues]
  · have hmeet : c.truth? w =
        some (request.remaining (Predicate.Dropped d) (predicateTruth d w) ⊓
          permission.remaining (Predicate.Dropped d) (predicateTruth d w)) := by
      rw [truth?_eq_remaining hns hc, Formula.remaining_flatten_and]
      rfl
    rw [hmeet, truth?_eq_remaining hns ha, truth?_eq_remaining hns hb]
    refine ⟨⟨_, _, rfl, rfl, rfl⟩, ?_⟩
    simp only [Option.some.injEq, Truth.inf_eq_yes]

/-- A request that is a disjunction stays together, also when one of its disjuncts is dropped. -/
theorem compile_restrict_or :
    ∃ e b c, restrict
          (some (.clause .or (compare .md5 .eq (.exact "a"))
            [compare .name .any (.lenient " "), compare .sha1 .eq (.exact "b")]))
          (some (compare .repository .eq (.exact "r"))) = some e ∧
      compile .h2 "p" (compare .repository .eq (.exact "r")) = .ok b ∧
      compile .h2 "p" e = .ok c ∧
      ∀ w, c.truth? w = some .yes → b.truth? w = some .yes := by
  have hns : isIdentifier "p".toList = true := by decide
  obtain ⟨e, he, -, hok, -, htruth⟩ := compile_restrict hns .h2
    (.clause .or (compare .md5 .eq (.exact "a"))
      [compare .name .any (.lenient " "), compare .sha1 .eq (.exact "b")])
    (compare .repository .eq (.exact "r"))
  obtain ⟨c, hc⟩ := hok.2 ⟨⟨_, compile_eq_ok_iff.2 ⟨by decide +kernel, rfl⟩⟩,
    ⟨_, compile_eq_ok_iff.2 ⟨by decide +kernel, rfl⟩⟩⟩
  obtain ⟨⟨a, ha⟩, b, hb⟩ := hok.1 ⟨c, hc⟩
  exact ⟨e, b, c, he, hb, hc, fun w hmet => ((htruth c a b hc ha hb w).2.1 hmet).2⟩

end SearchFilter.Expression
