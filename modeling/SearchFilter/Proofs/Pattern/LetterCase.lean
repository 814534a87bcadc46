import SearchFilter.Pattern
import SearchFilter.Proofs.Pattern.AnyCase
import SearchFilter.Proofs.Text.Settled

/-!
# Searches and letter case

A query asks for lowercase texts, so that a value asks for the same in any letter case. In a
wildcard there is one thing to see to. The stars are left out before the value is put into lower
case, and a star between letters ends a word where there is no end without it: a capital sigma next
to it can have its two forms in the two orders.

The pattern that stands in for a query keeps the letter case of the value.

Main statements: `Pattern.query_lowered` and `lowercase_prefixPattern`.
-/

namespace SearchFilter

/-! ## Stars -/

theorem starless_cons_star (cs : List Char) : starless ('*' :: cs) = starless cs := rfl

theorem starless_cons_of_ne {c : Char} (h : c ≠ '*') (cs : List Char) :
    starless (c :: cs) = c :: starless cs :=
  List.filter_cons_of_pos (by simpa using h)

theorem isEarly_star : IsEarly '*' := ⟨by decide, by decide⟩

theorem starless_lowerBetween {c : Char} (h : c ≠ '*') (before after : List Char) :
    starless (lowerBetween before c after) = lowerBetween before c after := by
  refine List.filter_eq_self.2 fun d hd => bne_iff_ne.2 ?_
  rintro rfl
  exact h (isEarly_star.steady.eq_of_mem_lowerBetween hd)

/-- Each capital sigma ends a word just when it does so without the stars. The text before is given
backwards. -/
def KeepsSigmas (before cs : List Char) : Prop :=
  ∀ u w, cs = u ++ 'Σ' :: w →
    isFinalSigma (u.reverse ++ before) w =
      isFinalSigma (starless (u.reverse ++ before)) (starless w)

theorem keepsSigmas_cons {before cs : List Char} {c : Char} :
    KeepsSigmas before (c :: cs) ↔
      (c = 'Σ' → isFinalSigma before cs = isFinalSigma (starless before) (starless cs)) ∧
        KeepsSigmas (c :: before) cs := by
  constructor
  · intro h
    constructor
    · rintro rfl
      exact h [] cs rfl
    · rintro u w rfl
      have hkept := h (c :: u) w rfl
      rwa [List.reverse_cons, List.append_assoc] at hkept
  · rintro ⟨hhere, hlater⟩ u w heq
    cases u with
    | nil =>
      obtain ⟨rfl, rfl⟩ := List.cons.inj heq
      exact hhere rfl
    | cons d u =>
      obtain ⟨rfl, hcs⟩ := List.cons.inj heq
      rw [List.reverse_cons, List.append_assoc]
      exact hlater u w hcs

theorem lowerBetween_eq_iff {before before' after after' : List Char} {c : Char} :
    lowerBetween before c after = lowerBetween before' c after' ↔
      (c = 'Σ' → isFinalSigma before after = isFinalSigma before' after') := by
  by_cases hc : c = 'Σ'
  · subst hc
    rw [lowerBetween_sigma, lowerBetween_sigma, List.singleton_inj]
    cases isFinalSigma before after <;> cases isFinalSigma before' after' <;> decide
  · exact iff_of_true (by rw [lowerBetween_of_ne hc, lowerBetween_of_ne hc]) fun h => absurd h hc

theorem length_lowerBetween (before before' after after' : List Char) (c : Char) :
    (lowerBetween before c after).length = (lowerBetween before' c after').length := by
  by_cases hc : c = 'Σ'
  · subst hc
    rw [lowerBetween_sigma, lowerBetween_sigma]
    rfl
  · rw [lowerBetween_of_ne hc, lowerBetween_of_ne hc]

/-- Stars can be left out before or after the text is put into lower case just when no sigma
depends on them. -/
theorem starless_lowerAfter_eq_iff {before cs : List Char} :
    starless (lowerAfter before cs) = lowerAfter (starless before) (starless cs) ↔
      KeepsSigmas before cs := by
  induction cs generalizing before with
  | nil => exact iff_of_true rfl fun u w h => absurd h.symm (by simp)
  | cons c cs ih =>
    rw [keepsSigmas_cons, ← ih]
    by_cases hc : c = '*'
    · subst hc
      obtain ⟨hsigma, hself⟩ := isEarly_star.settled
      rw [lowerAfter_cons, lowerBetween_of_ne hsigma, hself, List.singleton_append,
        starless_cons_star, starless_cons_star, starless_cons_star]
      exact (and_iff_right fun h => absurd h hsigma).symm
    · rw [lowerAfter_cons, starless_cons_of_ne hc, starless_cons_of_ne hc, lowerAfter_cons,
        ← lowerBetween_eq_iff, starless, List.filter_append, ← starless, ← starless,
        starless_lowerBetween hc]
      -- both forms of a sigma are one letter, so that the texts agree character by character
      constructor
      · exact fun h => List.append_inj h (length_lowerBetween _ _ _ _ _)
      · exact fun h => congrArg₂ (· ++ ·) h.1 h.2

instance (before cs : List Char) : Decidable (KeepsSigmas before cs) :=
  decidable_of_iff _ starless_lowerAfter_eq_iff

example : KeepsSigmas [] "ΟΔΟΣ*".toList ∧ ¬ KeepsSigmas [] "ΟΔΟΣ*ΑΡΧΗ".toList := by decide +kernel

/-! ## Queries -/

namespace Pattern

/-- The pattern with its value in lower case. -/
def lowered : Pattern → Pattern
  | exact v => exact (lowercase v)
  | wildcard v tokenize => wildcard (lowercase v) tokenize
  | lenient v => lenient (lowercase v)

theorem kind_lowered (p : Pattern) : p.lowered.kind = p.kind := by
  cases p <;> rfl

theorem isBlank_lowered (p : Pattern) : p.lowered.isBlank = p.isBlank := by
  cases p with
  | exact v | lenient v => exact isBlank_lowercase v
  | wildcard v tokenize =>
    rw [lowered, isBlank, isBlank, toList_lowercase,
      (isEarly_star.steady.or steady_isSpace).all_lowerAfter]

/-- No star of a wildcard changes which of its capital sigmas end a word. -/
def KeepsSigmas : Pattern → Prop
  | wildcard v _ => SearchFilter.KeepsSigmas [] v.toList
  | exact _ | lenient _ => True

instance : DecidablePred KeepsSigmas := fun p => by
  unfold KeepsSigmas
  split <;> infer_instance

/-- A pattern asks for the same in lower case. -/
theorem query_lowered {p : Pattern} (h : p.KeepsSigmas) : p.lowered.query = p.query := by
  cases p with
  | exact v | lenient v => rw [lowered, query, query, lowercase_lowercase]
  | wildcard v tokenize =>
    have hstarless : lowercase (withoutStars (lowercase v)) = lowercase (withoutStars v) := by
      have hsame : withoutStars (lowercase v) = lowercase (withoutStars v) := by
        rw [withoutStars, withoutStars, toList_lowercase, starless_lowerAfter_eq_iff.2 h, lowercase,
          String.toList_ofList]
        rfl
      rw [hsame, lowercase_lowercase]
    exact congrArg (fun s => TextQuery.mk ⟨s, true⟩
      (if tokenize then Lexeme.phrase? true s else none)) hstarless

end Pattern

/-! ## Plain patterns -/

theorem likeWildcard_of_ne {c : Char} (h : c ≠ '*') : likeWildcard c = likeLiteral c := if_neg h

theorem inert_star : Inert '*' := by decide +kernel

theorem inscribes_likeWildcard : Inscribes likeWildcard := by
  intro c
  by_cases hc : c = '*'
  · subst hc
    exact .inl ⟨inert_star, List.cons_ne_nil _ _, List.forall_mem_singleton.2 inert_percent⟩
  · rw [likeWildcard_of_ne hc]
    refine (inscribes_likeLiteral c).imp_right fun ⟨hself, hlower⟩ => ⟨hself, ?_⟩
    intro before after d hd
    rw [likeWildcard_of_ne, hlower before after d hd]
    rintro rfl
    exact hc (isEarly_star.steady.eq_of_mem_lowerBetween hd)

theorem getLast?_lowerAfter_eq_star_iff {before cs : List Char} :
    (lowerAfter before cs).getLast? = some '*' ↔ cs.getLast? = some '*' := by
  induction cs generalizing before with
  | nil => rfl
  | cons c cs ih =>
    rw [lowerAfter_cons]
    cases cs with
    | nil =>
      rw [lowerAfter, List.append_nil, List.getLast?_singleton, Option.some_inj]
      constructor
      · exact fun h => isEarly_star.steady.eq_of_mem_lowerBetween (List.mem_of_getLast? h)
      · rintro rfl
        rw [lowerBetween_of_ne isEarly_star.settled.1, isEarly_star.settled.2]
        rfl
    | cons d cs =>
      have hne : lowerAfter (c :: before) (d :: cs) ≠ [] := by
        rw [lowerAfter_cons]
        exact List.append_ne_nil_of_left_ne_nil (lowerBetween_ne_nil _ _ _) _
      rw [List.getLast?_append_of_ne_nil _ hne, ih, List.getLast?_cons_cons]

/-- The pattern of a wildcard in lower case is that of the lowercase wildcard. -/
theorem lowercase_prefixPattern (s : String) :
    lowercase (prefixPattern s) = prefixPattern (lowercase s) := by
  have htail : ∀ c ∈ (if s.toList.getLast? = some '*' then [] else ['%']), Inert c := by
    split
    · exact List.forall_mem_nil _
    · exact List.forall_mem_singleton.2 inert_percent
  have hsame : (if (lowercase s).toList.getLast? = some '*' then [] else ['%']) =
      if s.toList.getLast? = some '*' then [] else ['%'] := by
    simp only [toList_lowercase, getLast?_lowerAfter_eq_star_iff]
  rw [prefixPattern, prefixPattern, lowercase, String.toList_ofList,
    inscribes_likeWildcard.lowerAfter_flatMap_append htail s.toList rfl, hsame, toList_lowercase]

end SearchFilter
