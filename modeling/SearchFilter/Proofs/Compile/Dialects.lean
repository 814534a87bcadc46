import SearchFilter.Proofs.Compile.Restriction
import SearchFilter.Proofs.Compile.Validation

/-!
# One expression in both dialects

The dialects have different columns and write comparisons differently, but they decide alike. Two
differences are left: the addresses of uploaders have a column in one dialect only, and a list that
is nothing but a search vector in one dialect can be matched with a regular expression only in the
other. Expressions that keep away from both mean the same condition twice.

Main statement: `Expression.compile_of_portable`.
-/

namespace SearchFilter

open Sql

/-! ## Issues -/

/-- The strategy that a dialect has in the place of another dialect's. -/
def Strategy.inDialect (d : Dialect) : Strategy → Strategy
  | regex => regex
  | tsquery | like => d.textStrategy

/-- The same problem in a dialect. -/
def Problem.inDialect (d : Dialect) : Problem → Problem
  | arity terms => arity terms
  | unsupported strategy => unsupported (strategy.inDialect d)
  | nullTerm => nullTerm

/-- The same issue in a dialect. -/
def Issue.inDialect (d : Dialect) (i : Issue) : Issue := { i with problem := i.problem.inDialect d }

/-! ## Columns -/

theorem exists_textColumn? {f : Field} (h : f ≠ .uploaderIps) :
    ∃ c, Dialect.textColumn? f = some c ∧ c.fulltext = (Dialect.vectorColumn f).fulltext := by
  cases f with
  | uploaderIps => exact absurd rfl h
  | _ => exact ⟨_, rfl, rfl⟩

/-- A list without a column for its text is nothing but a search vector. -/
theorem regexColumn?_vectorColumn {f : Field} (hips : f ≠ .uploaderIps)
    (h : f ∉ [.keywords, .uploaders, .tags]) :
    (Dialect.vectorColumn f).regexColumn? .postgres ≠ none := by
  cases f with
  | uploaderIps => exact absurd rfl hips
  | keywords | uploaders | tags => exact absurd (by decide) h
  | _ => decide

namespace Column

variable {c c' : Column} {op : Operand} {terms : List Scalar} {problem : Problem}

/-- What is wrong in one dialect is wrong in the other. -/
theorem Rejects.inDialect (hfulltext : c'.fulltext = c.fulltext)
    (hregex : op = .regex → c.regexColumn? .postgres ≠ none)
    (h : c.Rejects .postgres op terms problem) :
    c'.Rejects .h2 op terms (problem.inDialect .h2) := by
  cases h with
  | arity hop h => exact .arity hop h
  | any hterms h => exact .any hterms (hfulltext.trans h)
  | regex h => exact absurd (regexColumn?_eq_none_iff.2 h) (hregex rfl)
  | regexNull h => exact .regexNull (by simp)
  | membership h hnull => exact .membership (hfulltext.trans h) hnull

theorem Rejects.of_h2 (hfulltext : c'.fulltext = c.fulltext)
    (hregex : op = .regex → c.regexColumn? .postgres ≠ none)
    (h : c'.Rejects .h2 op terms problem) : ∃ other, c.Rejects .postgres op terms other := by
  cases h with
  | arity hop h => exact ⟨_, .arity hop h⟩
  | any hterms h => exact ⟨_, .any hterms (hfulltext.symm.trans h)⟩
  | regex h => cases h.1
  | regexNull h => exact ⟨_, .regexNull (mt regexColumn?_eq_none_iff.2 (hregex rfl))⟩
  | membership h hnull => exact ⟨_, .membership (hfulltext.symm.trans h) hnull⟩

end Column

/-! ## Predicates -/

namespace Predicate

variable {p : Predicate} {problem : Problem}

/-- A predicate on a field that both dialects have a column for, and on its text only where both
have that. -/
def Portable (p : Predicate) : Prop :=
  p.field ≠ .uploaderIps ∧ (p.operand = .regex → p.field ∉ [.keywords, .uploaders, .tags])

instance : DecidablePred Portable := fun p => by
  unfold Portable
  infer_instance

/-- What a predicate is rendered as in both dialects. -/
def fragments? (p : Predicate) : Option (Predicate × Fragment × Fragment) :=
  match p.outcome .postgres, p.outcome .h2 with
  | .rendered f, .rendered g => some (p, f, g)
  | _, _ => none

theorem fragments?_eq_some_iff {x : Predicate × Fragment × Fragment} :
    p.fragments? = some x ↔
      p = x.1 ∧ p.outcome .postgres = .rendered x.2.1 ∧ p.outcome .h2 = .rendered x.2.2 := by
  obtain ⟨q, f, g⟩ := x
  unfold fragments?
  cases p.outcome .postgres with
  | dropped | rejected => simp
  | rendered f' => cases p.outcome .h2 <;> simp

namespace Portable

theorem dropped_iff (h : p.Portable) : p.Dropped .postgres ↔ p.Dropped .h2 := by
  obtain ⟨c, hc, -⟩ := exists_textColumn? h.1
  simp [Dropped, Dialect.column?, hc]

theorem hasProblem_inDialect (h : p.Portable) (hp : p.HasProblem .postgres problem) :
    p.HasProblem .h2 (problem.inDialect .h2) := by
  obtain ⟨c', hc', hfulltext⟩ := exists_textColumn? h.1
  obtain ⟨c, hc, hrejects⟩ := hp
  cases hc
  exact ⟨c', hc', hrejects.inDialect hfulltext fun hop => regexColumn?_vectorColumn h.1 (h.2 hop)⟩

theorem exists_hasProblem (h : p.Portable) (hp : p.HasProblem .h2 problem) :
    ∃ other, p.HasProblem .postgres other := by
  obtain ⟨c, hc, hfulltext⟩ := exists_textColumn? h.1
  obtain ⟨c', hc', hrejects⟩ := hp
  rw [Dialect.column?, hc, Option.some.injEq] at hc'
  subst hc'
  obtain ⟨other, hother⟩ :=
    hrejects.of_h2 hfulltext fun hop => regexColumn?_vectorColumn h.1 (h.2 hop)
  exact ⟨other, _, rfl, hother⟩

/-- A portable predicate becomes the same in both dialects: nothing, the same issue, or a
fragment. -/
theorem outcomes (h : p.Portable) :
    (p.outcome .postgres = .dropped ∧ p.outcome .h2 = .dropped) ∨
    (∃ i, p.outcome .postgres = .rejected i ∧ p.outcome .h2 = .rejected (i.inDialect .h2)) ∨
    ∃ f g, p.outcome .postgres = .rendered f ∧ p.outcome .h2 = .rendered g := by
  rcases outcome_cases .postgres p with ⟨hdropped, ho⟩ | ⟨-, problem, hproblem, ho⟩ |
    ⟨hkept, hnone, f, ho, -⟩
  · exact .inl ⟨ho, outcome_eq_dropped_iff.2 (h.dropped_iff.1 hdropped)⟩
  · have hp : p.HasProblem .postgres problem := (hproblem problem).2 rfl
    exact .inr (.inl ⟨_, ho, outcome_eq_rejected_iff.2 ⟨_, h.hasProblem_inDialect hp, rfl⟩⟩)
  · rcases outcome_cases .h2 p with ⟨hdropped, -⟩ | ⟨-, problem, hproblem, -⟩ | ⟨-, -, g, ho', -⟩
    · exact absurd (h.dropped_iff.2 hdropped) hkept
    · obtain ⟨other, hother⟩ := h.exists_hasProblem ((hproblem problem).2 rfl)
      exact absurd hother (hnone other)
    · exact .inr (.inr ⟨f, g, ho, ho'⟩)

theorem issue?_h2 (h : p.Portable) :
    (p.outcome .h2).issue? = (p.outcome .postgres).issue?.map (Issue.inDialect .h2) := by
  rcases h.outcomes with ⟨ho, ho'⟩ | ⟨i, ho, ho'⟩ | ⟨f, g, ho, ho'⟩
  all_goals rw [ho, ho']; rfl

theorem fragment?_postgres (h : p.Portable) :
    (p.outcome .postgres).fragment? = p.fragments?.map fun x => x.2.1 := by
  rcases h.outcomes with ⟨ho, ho'⟩ | ⟨i, ho, ho'⟩ | ⟨f, g, ho, ho'⟩
  all_goals rw [fragments?, ho, ho']; rfl

theorem fragment?_h2 (h : p.Portable) :
    (p.outcome .h2).fragment? = p.fragments?.map fun x => x.2.2 := by
  rcases h.outcomes with ⟨ho, ho'⟩ | ⟨i, ho, ho'⟩ | ⟨f, g, ho, ho'⟩
  all_goals rw [fragments?, ho, ho']; rfl

end Portable

end Predicate

/-! ## Expressions -/

namespace Expression

variable {e : Expression}

theorem surviving_h2 (h : ∀ p ∈ e.atoms, p.Portable) : e.surviving .h2 = e.surviving .postgres := by
  refine Formula.fold_congr _ fun p hp => ?_
  simp only [(h p hp).dropped_iff]

/-- The issues of an expression, under the name that each dialect has for its strategy. -/
theorem issues_h2 (h : ∀ p ∈ e.atoms, p.Portable) :
    e.issues .h2 = (e.issues .postgres).map (Issue.inDialect .h2) := by
  unfold issues
  rw [List.map_filterMap]
  exact List.filterMap_congr fun p hp => (h p hp).issue?_h2

theorem reported_h2 (h : ∀ p ∈ e.atoms, p.Portable) (ns ns' : String) :
    e.reported .h2 ns' = (e.reported .postgres ns).map (Issue.inDialect .h2) := by
  rw [reported_eq_issues, reported_eq_issues, issues_h2 h]

theorem exists_compile_h2_iff (h : ∀ p ∈ e.atoms, p.Portable) (ns ns' : String) :
    (∃ c, e.compile .postgres ns = .ok c) ↔ ∃ c, e.compile .h2 ns' = .ok c := by
  rw [exists_compile_eq_ok_iff, exists_compile_eq_ok_iff, issues_h2 h, List.map_eq_nil_iff]

/-- What an expression comes down to in both dialects. -/
def filters? (e : Expression) : Option (Formula (Predicate × Fragment × Fragment)) :=
  e.prune Predicate.fragments?

theorem filter?_postgres (h : ∀ p ∈ e.atoms, p.Portable) :
    e.filter? .postgres = e.filters?.map (Formula.map fun x => x.2.1) := by
  unfold filter? filters?
  rw [Formula.map_prune]
  exact Formula.fold_congr _ fun p hp =>
    congrArg (Option.map Formula.atom) (h p hp).fragment?_postgres

theorem filter?_h2 (h : ∀ p ∈ e.atoms, p.Portable) :
    e.filter? .h2 = e.filters?.map (Formula.map fun x => x.2.2) := by
  unfold filter? filters?
  rw [Formula.map_prune]
  exact Formula.fold_congr _ fun p hp => congrArg (Option.map Formula.atom) (h p hp).fragment?_h2

/-- The predicates that are left of an expression with conditions are those that have fragments. -/
theorem map_fst_fragments? (h : ∀ p ∈ e.atoms, p.Portable)
    (hissues : ∀ p ∈ e.atoms, (p.outcome .postgres).issue? = none) :
    (e.atoms.filterMap Predicate.fragments?).map Prod.fst =
      e.atoms.filter fun p => ¬ p.Dropped .postgres := by
  rw [List.map_filterMap, ← List.filterMap_eq_filter]
  refine List.filterMap_congr fun p hp => ?_
  rcases (h p hp).outcomes with ⟨ho, ho'⟩ | ⟨i, ho, -⟩ | ⟨f, g, ho, ho'⟩
  · have hdropped : p.Dropped .postgres := Predicate.outcome_eq_dropped_iff.1 ho
    simp [Predicate.fragments?, ho, ho', hdropped, Option.guard]
  · have hnone := hissues p hp
    rw [ho] at hnone
    cases hnone
  · have hkept : ¬ p.Dropped .postgres := by
      rw [← Predicate.outcome_eq_dropped_iff, ho]
      exact nofun
    simp [Predicate.fragments?, ho, ho', hkept, Option.guard]

variable {ns ns' : String} {c c' : Condition}

/-- The conditions of an expression are written alike, from what its predicates are rendered as. -/
theorem exists_filters_of_compile (h : ∀ p ∈ e.atoms, p.Portable)
    (hc : e.compile .postgres ns = .ok c) (hc' : e.compile .h2 ns' = .ok c') :
    ∃ g? : Option (Formula (Predicate × Fragment × Fragment)),
      (g?.toList.flatMap Formula.atoms).map Prod.fst =
        e.atoms.filter (fun p => ¬ p.Dropped .postgres) ∧
      (∀ x ∈ g?.toList.flatMap Formula.atoms,
        x.1.outcome .postgres = .rendered x.2.1 ∧ x.1.outcome .h2 = .rendered x.2.2) ∧
      c = .ofPieces ns (g?.elim [] fun g => Filter.pieces .postgres (g.map fun x => x.2.1)) ∧
      c' = .ofPieces ns' (g?.elim [] fun g => Filter.pieces .h2 (g.map fun x => x.2.2)) := by
  obtain ⟨hissues, rfl⟩ := compile_eq_ok_iff.1 hc
  obtain ⟨-, rfl⟩ := compile_eq_ok_iff.1 hc'
  have hatoms : e.filters?.toList.flatMap Formula.atoms = e.atoms.filterMap Predicate.fragments? :=
    Formula.flatMap_atoms_prune _ e
  refine ⟨e.filters?, ?_, fun x hx => ?_, ?_, ?_⟩
  · rw [hatoms, map_fst_fragments? h hissues]
  · rw [hatoms] at hx
    obtain ⟨p, -, hp⟩ := List.mem_filterMap.1 hx
    obtain ⟨rfl, hrendered⟩ := Predicate.fragments?_eq_some_iff.1 hp
    exact hrendered
  · rw [pieces, filter?_postgres h]
    cases e.filters? <;> rfl
  · rw [pieces, filter?_h2 h]
    cases e.filters? <;> rfl

/-- The texts of an expression are read as the same clauses over the same predicates. -/
theorem exists_surviving_of_compile (h : ∀ p ∈ e.atoms, p.Portable)
    (hns : isIdentifier ns.toList = true) (hns' : isIdentifier ns'.toList = true)
    (hc : e.compile .postgres ns = .ok c) (hc' : e.compile .h2 ns' = .ok c')
    (hne : c.sqlText ≠ "") :
    ∃ s, e.surviving .postgres = some s ∧ e.surviving .h2 = some s ∧
      c.reading = some (TokenTree.map some (Tree.graft (Predicate.tree .postgres) s)) ∧
      c'.reading = some (TokenTree.map some (Tree.graft (Predicate.tree .h2) s)) ∧
      ∀ p ∈ s.atoms,
        (∃ own, compile .postgres ns (.atom p) = .ok own ∧
          own.reading = some (TokenTree.map some (p.tree .postgres))) ∧
        ∃ own, compile .h2 ns' (.atom p) = .ok own ∧
          own.reading = some (TokenTree.map some (p.tree .h2)) := by
  rcases reading_of_compile hns hc with ⟨-, hempty⟩ | ⟨s, hs, hr⟩
  · exact absurd hempty hne
  · have hs' : e.surviving .h2 = some s := (surviving_h2 h).trans hs
    rcases reading_of_compile hns' hc' with ⟨hall, -⟩ | ⟨s', hs'', hr'⟩
    · rw [surviving_eq_none_iff.2 hall] at hs'
      cases hs'
    · rw [hs', Option.some.injEq] at hs''
      subst hs''
      refine ⟨s, hs, hs', hr, hr', fun p hp => ?_⟩
      obtain ⟨hpe, hkept⟩ := Formula.mem_atoms_of_sift hs hp
      rcases (h p hpe).outcomes with ⟨ho, -⟩ | ⟨i, ho, -⟩ | ⟨f, g, ho, ho'⟩
      · exact absurd (Predicate.outcome_eq_dropped_iff.1 ho) hkept
      · have hnone := (compile_eq_ok_iff.1 hc).1 p hpe
        rw [ho] at hnone
        cases hnone
      · exact ⟨reading_of_rendered hns ho, reading_of_rendered hns' ho'⟩

/-- The truth value of a condition does not depend on the dialect where that of its predicates does
not. -/
theorem truth?_eq_of_portable (h : ∀ p ∈ e.atoms, p.Portable)
    (hns : isIdentifier ns.toList = true) (hns' : isIdentifier ns'.toList = true)
    (hc : e.compile .postgres ns = .ok c) (hc' : e.compile .h2 ns' = .ok c')
    {w w' : List (Token (Option Slot)) → Truth}
    (hw : ∀ p ∈ e.atoms, ¬ p.Dropped .postgres →
      predicateTruth .postgres w p = predicateTruth .h2 w' p) :
    c.truth? w = c'.truth? w' := by
  rw [truth?_of_compile hns hc, truth?_of_compile hns' hc', surviving_h2 h]
  cases hs : e.surviving .postgres with
  | none => rfl
  | some s =>
    refine congrArg some (Formula.fold_congr _ fun p hp => ?_)
    obtain ⟨hpe, hkept⟩ := Formula.mem_atoms_of_sift hs hp
    exact hw p hpe hkept

/-- An expression of portable predicates is the same in both dialects. The same predicates are
dropped, there are the same issues up to the names of strategies, and so there is a condition in
both or in neither. Both conditions say nothing just when all predicates are dropped; otherwise they
are written with the same clauses over the same predicates, and they are read so. -/
theorem compile_of_portable (h : ∀ p ∈ e.atoms, p.Portable) (ns ns' : String) :
    (∀ p ∈ e.atoms, p.Dropped .postgres ↔ p.Dropped .h2) ∧
    e.reported .h2 ns' = (e.reported .postgres ns).map (Issue.inDialect .h2) ∧
    ((∃ c, e.compile .postgres ns = .ok c) ↔ ∃ c, e.compile .h2 ns' = .ok c) ∧
    ∀ c c', e.compile .postgres ns = .ok c → e.compile .h2 ns' = .ok c' →
      (c.sqlText = "" ↔ ∀ p ∈ e.atoms, p.Dropped .postgres) ∧ (c.sqlText = "" ↔ c'.sqlText = "") ∧
      (∃ g? : Option (Formula (Predicate × Fragment × Fragment)),
        (g?.toList.flatMap Formula.atoms).map Prod.fst =
          e.atoms.filter (fun p => ¬ p.Dropped .postgres) ∧
        (∀ x ∈ g?.toList.flatMap Formula.atoms,
          x.1.outcome .postgres = .rendered x.2.1 ∧ x.1.outcome .h2 = .rendered x.2.2) ∧
        c = .ofPieces ns (g?.elim [] fun g => Filter.pieces .postgres (g.map fun x => x.2.1)) ∧
        c' = .ofPieces ns' (g?.elim [] fun g => Filter.pieces .h2 (g.map fun x => x.2.2))) ∧
      (isIdentifier ns.toList = true → isIdentifier ns'.toList = true →
        (c.sqlText ≠ "" → ∃ s, e.surviving .postgres = some s ∧ e.surviving .h2 = some s ∧
          c.reading = some (TokenTree.map some (Tree.graft (Predicate.tree .postgres) s)) ∧
          c'.reading = some (TokenTree.map some (Tree.graft (Predicate.tree .h2) s)) ∧
          ∀ p ∈ s.atoms,
            (∃ own, compile .postgres ns (.atom p) = .ok own ∧
              own.reading = some (TokenTree.map some (p.tree .postgres))) ∧
            ∃ own, compile .h2 ns' (.atom p) = .ok own ∧
              own.reading = some (TokenTree.map some (p.tree .h2))) ∧
        ∀ w w', (∀ p ∈ e.atoms, ¬ p.Dropped .postgres →
            predicateTruth .postgres w p = predicateTruth .h2 w' p) →
          c.truth? w = c'.truth? w') := by
  refine ⟨fun p hp => (h p hp).dropped_iff, reported_h2 h ns ns', exists_compile_h2_iff h ns ns',
    fun c c' hc hc' => ⟨sqlText_eq_empty_iff_forall_dropped hc, ?_,
      exists_filters_of_compile h hc hc', fun hns hns' =>
        ⟨exists_surviving_of_compile h hns hns' hc hc',
          fun w w' => truth?_eq_of_portable h hns hns' hc hc'⟩⟩⟩
  rw [sqlText_eq_empty_iff_forall_dropped hc, sqlText_eq_empty_iff_forall_dropped hc']
  exact forall₂_congr fun p hp => (h p hp).dropped_iff

/-- The dialects write the negated wildcard differently, and they drop the same blank term. -/
theorem compile_of_portable_wildcard :
    ∃ c c', compile .postgres "p" (.clause .and (compare .version .notEq (.wildcard "1.2.3*" false))
        [.clause .or (compare .keywords .any (.lenient " "))
          [compare .paths .regex (.exact "a")]]) = .ok c ∧
      compile .h2 "q" (.clause .and (compare .version .notEq (.wildcard "1.2.3*" false))
        [.clause .or (compare .keywords .any (.lenient " "))
          [compare .paths .regex (.exact "a")]]) = .ok c' ∧
      c.reading = some (TokenTree.map some (Tree.graft (Predicate.tree .postgres)
        (.clause .and (compare .version .notEq (.wildcard "1.2.3*" false))
          [compare .paths .regex (.exact "a")]))) ∧
      c'.reading = some (TokenTree.map some (Tree.graft (Predicate.tree .h2)
        (.clause .and (compare .version .notEq (.wildcard "1.2.3*" false))
          [compare .paths .regex (.exact "a")]))) := by
  obtain ⟨-, -, hboth, hread⟩ := compile_of_portable
    (e := .clause .and (compare .version .notEq (.wildcard "1.2.3*" false))
      [.clause .or (compare .keywords .any (.lenient " ")) [compare .paths .regex (.exact "a")]])
    (by decide) "p" "q"
  obtain ⟨c, hc⟩ : ∃ c, compile .postgres "p"
      (.clause .and (compare .version .notEq (.wildcard "1.2.3*" false))
        [.clause .or (compare .keywords .any (.lenient " "))
          [compare .paths .regex (.exact "a")]]) = .ok c :=
    exists_compile_eq_ok_iff.2 (by decide +kernel)
  obtain ⟨c', hc'⟩ := hboth.1 ⟨c, hc⟩
  obtain ⟨hempty, -, -, hreading⟩ := hread c c' hc hc'
  obtain ⟨hsome, -⟩ := hreading (by decide) (by decide)
  have hne : c.sqlText ≠ "" := fun hnone => absurd (hempty.1 hnone) (by decide +kernel)
  obtain ⟨s, hs, -, hr, hr', -⟩ := hsome hne
  obtain rfl := Option.some.inj (hs.symm.trans (by decide +kernel : _ = some
    (.clause .and (compare .version .notEq (.wildcard "1.2.3*" false))
      [compare .paths .regex (.exact "a")])))
  exact ⟨c, c', hc, hc', hr, hr'⟩

end Expression

end SearchFilter
