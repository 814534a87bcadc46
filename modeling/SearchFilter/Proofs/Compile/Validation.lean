import SearchFilter.Proofs.Compile.Branches
import SearchFilter.Proofs.Compile.Grammar

/-!
# Valid expressions

A predicate is dropped, rejected or rendered, and which of the three depends on nothing but the
dialect and the predicate. An expression is compiled unless one of its predicates is rejected; then
all the issues are told, in the order of the predicates. What is compiled says what is rendered of
the predicates, and is empty just when all of them are dropped.

Main statement: `Expression.outcomes_of_compile`.
-/

namespace SearchFilter

open Sql

variable {d : Dialect} {ns : String}

namespace Predicate

/-- A predicate is dropped, or has one problem and is rejected with it, or is rendered and well
formed. -/
theorem outcome_cases (d : Dialect) (p : Predicate) :
    (p.Dropped d ∧ p.outcome d = .dropped) ∨
    (¬ p.Dropped d ∧ ∃ problem, (∀ other, p.HasProblem d other ↔ other = problem) ∧
      p.outcome d = .rejected ⟨p.field, p.operand, problem⟩) ∨
    (¬ p.Dropped d ∧ (∀ problem, ¬ p.HasProblem d problem) ∧
      ∃ f, p.outcome d = .rendered f ∧ f.WellFormed d) := by
  cases ho : p.outcome d with
  | dropped => exact .inl ⟨outcome_eq_dropped_iff.1 ho, rfl⟩
  | rejected i =>
    obtain ⟨problem, hproblem, rfl⟩ := outcome_eq_rejected_iff.1 ho
    refine .inr (.inl ⟨hproblem.not_dropped, problem, fun other => ⟨fun hother => ?_, ?_⟩, rfl⟩)
    · have hrejected := outcome_eq_rejected_iff.2 ⟨other, hother, rfl⟩
      rw [ho] at hrejected
      cases hrejected
      rfl
    · rintro rfl
      exact hproblem
  | rendered f =>
    refine .inr (.inr ⟨fun hdropped => ?_, fun problem hproblem => ?_, f, rfl,
      wellFormed_of_rendered ho⟩)
    · rw [outcome_eq_dropped_iff.2 hdropped] at ho
      cases ho
    · rw [outcome_eq_rejected_iff.2 ⟨problem, hproblem, rfl⟩] at ho
      cases ho

end Predicate

namespace Expression

variable {e : Expression} {c : Condition}

theorem exists_compile_eq_error_iff :
    (∃ invalid, e.compile d ns = .error invalid) ↔
      ∃ p ∈ e.atoms, ∃ problem, p.HasProblem d problem := by
  have hissues : e.issues d ≠ [] ↔ ∃ p ∈ e.atoms, ∃ problem, p.HasProblem d problem := by
    rw [issues, ne_eq, List.filterMap_eq_nil_iff]
    simp only [not_forall, exists_prop, Predicate.exists_hasProblem_iff, ne_eq]
  rw [← hissues]
  constructor
  · rintro ⟨invalid, h⟩
    exact (compile_eq_error_iff.1 h).1
  · exact fun h => ⟨⟨e.issues d⟩, compile_eq_error_iff.2 ⟨h, rfl⟩⟩

/-- The condition of an expression is written from the fragments of its predicates, in order, and is
read as the filter that they make up. -/
theorem exists_filter_of_compile (h : e.compile d ns = .ok c) :
    ∃ f? : Option Filter, c = .ofPieces ns (f?.elim [] (Filter.pieces d)) ∧
      (f?.toList.flatMap Formula.atoms = e.atoms.filterMap fun p => (p.outcome d).fragment?) ∧
      (isIdentifier ns.toList = true → ∀ f, f? = some f →
        c.reading = some (TokenTree.map some (f.tree d))) := by
  obtain ⟨-, rfl⟩ := compile_eq_ok_iff.1 h
  refine ⟨e.filter? d, ?_, Formula.flatMap_atoms_prune _ e, fun hns f => reading_of_filter? hns⟩
  rw [pieces]
  cases e.filter? d <;> rfl

/-- The text of a condition is empty, or it is read as comparisons of the dialect. -/
theorem wellWritten_of_compile (hns : isIdentifier ns.toList = true) (h : e.compile d ns = .ok c) :
    c.sqlText = "" ∨ ∃ t, c.reading = some (TokenTree.map some t) ∧ WellWritten d t := by
  rw [(compile_eq_ok_iff.1 h).2]
  cases hf : e.filter? d with
  | none => exact .inl (sqlText_eq_empty_of_filter? hf)
  | some f => exact .inr ⟨_, reading_of_filter? hns hf, wellWritten_of_filter? hf⟩

/-- What becomes of predicates and of the expression that they stand in. Each predicate is dropped,
rejected or rendered in the same way wherever it stands, and a compiler that can fall through does
so for none. The expression is invalid just when one of its predicates has a problem, and it has the
issues of all of them, in order. If it is valid, its condition is written from what is rendered of
its predicates, in order, and is read as that; it says nothing just when all are dropped. -/
theorem outcomes_of_compile (d : Dialect) (ns : String) (e : Expression) :
    (∀ p : Predicate,
      (p.Dropped d ∧ p.outcome d = .dropped) ∨
      (¬ p.Dropped d ∧ ∃ problem, (∀ other, p.HasProblem d other ↔ other = problem) ∧
        p.outcome d = .rejected ⟨p.field, p.operand, problem⟩) ∨
      (¬ p.Dropped d ∧ (∀ problem, ¬ p.HasProblem d problem) ∧
        ∃ f, p.outcome d = .rendered f ∧ f.WellFormed d)) ∧
    (∀ p : Predicate, p.outcomeOrFault d = .ok (p.outcome d)) ∧
    ((∃ invalid, e.compile d ns = .error invalid) ↔
      ∃ p ∈ e.atoms, ∃ problem, p.HasProblem d problem) ∧
    (∀ invalid, e.compile d ns = .error invalid →
      invalid.issues = e.atoms.filterMap fun p => (p.outcome d).issue?) ∧
    ∀ c, e.compile d ns = .ok c →
      (c.sqlText = "" ↔ ∀ p ∈ e.atoms, p.Dropped d) ∧
      (∃ f? : Option Filter, c = .ofPieces ns (f?.elim [] (Filter.pieces d)) ∧
        (f?.toList.flatMap Formula.atoms = e.atoms.filterMap fun p => (p.outcome d).fragment?) ∧
        (isIdentifier ns.toList = true → ∀ f, f? = some f →
          c.reading = some (TokenTree.map some (f.tree d)))) ∧
      (isIdentifier ns.toList = true →
        c.sqlText = "" ∨ ∃ t, c.reading = some (TokenTree.map some t) ∧ WellWritten d t) :=
  ⟨Predicate.outcome_cases d, Predicate.outcomeOrFault_eq d, exists_compile_eq_error_iff,
    fun _ h => (compile_eq_error_iff.1 h).2,
    fun _ h => ⟨sqlText_eq_empty_iff_forall_dropped h, exists_filter_of_compile h,
      fun hns => wellWritten_of_compile hns h⟩⟩

/-- A predicate that is dropped beside one that is rendered, and three that are rejected. -/
theorem outcomes_of_compile_blank_and_invalid :
    (∃ c, compile .postgres "p" (.clause .or (compare .sha1 .eq (.exact " "))
        [compare .keywords .any (.lenient "a")]) = .ok c ∧
      ∃ t, c.reading = some (TokenTree.map some t) ∧ WellWritten .postgres t) ∧
    ∃ invalid, compile .postgres "p" (.clause .and
        (.clause .or (compare .md5 .any (.exact "a")) [compare .name .any (.exact "b")])
        [compare .uploaderIps .regex (.exact "c"), compare .sha1 .regex .null]) = .error invalid ∧
      invalid.issues = [⟨.md5, .any, .unsupported .tsquery⟩,
        ⟨.uploaderIps, .regex, .unsupported .regex⟩, ⟨.sha1, .regex, .nullTerm⟩] := by
  constructor
  · refine Exists.imp (fun c hok => ⟨hok, ?_⟩) ⟨_, compile_eq_ok_iff.2 ⟨by decide +kernel, rfl⟩⟩
    obtain ⟨hempty, -, hwritten⟩ := (outcomes_of_compile .postgres "p" _).2.2.2.2 c hok
    refine (hwritten (by decide)).resolve_left fun hnone => ?_
    exact absurd (hempty.1 hnone) (by decide +kernel)
  · have hissues := (outcomes_of_compile .postgres "p" (.clause .and
        (.clause .or (compare .md5 .any (.exact "a")) [compare .name .any (.exact "b")])
        [compare .uploaderIps .regex (.exact "c"), compare .sha1 .regex .null])).2.2.2.1
    refine Exists.imp (fun invalid herror => ⟨herror, (hissues invalid herror).trans ?_⟩)
      ⟨_, compile_eq_error_iff.2 ⟨by decide +kernel, rfl⟩⟩
    decide +kernel

end Expression

end SearchFilter
