import Mathlib.Data.List.Basic
import SearchFilter.Text.Lowercase

/-!
# What lowercase texts keep

No letter has a lowercase form among the signs and digits that come before `A` in ASCII, and these
are their own. So a text has as many of each as its lowercase form. The lowercase form of the start
of a text is the start of its lowercase form, unless the start ends in a capital sigma: that letter
has another form at the end of a word.

Main statements: `count_lowercase` and `startsWith_lowercase`.
-/

namespace SearchFilter

/-- A character before the letters in ASCII, other than the null character. -/
def IsEarly (x : Char) : Prop := 0 < x.toNat ∧ x.toNat < 'A'.toNat

theorem eq_toNat_of_ofNat_eq {n : ℕ} {x : Char} (h : Char.ofNat n = x) (hx : 0 < x.toNat) :
    n = x.toNat := by
  subst h
  by_cases hvalid : n.isValidChar
  · have hchar : Char.ofNat n = Char.ofNatAux n hvalid := dif_pos hvalid
    rw [hchar]
    exact UInt32.toNat_ofNatLT.symm
  · have hzero : (Char.ofNat n).toNat = 0 := congrArg Char.toNat (dif_neg hvalid)
    rw [hzero] at hx
    exact absurd hx (Nat.lt_irrefl 0)

theorem first_le_of_mem_caseRuns : ∀ r ∈ caseRuns, 'A'.toNat ≤ r.first := by decide +kernel

theorem target_le_of_mem_caseRuns : ∀ r ∈ caseRuns, 'a'.toNat ≤ r.target := by decide +kernel

variable {x : Char}

theorem lowerChar_self (hx : IsEarly x) : lowerChar x = [x] := by
  have hnone : caseRuns.findSome? (·.lower? x.toNat) = none := by
    rw [List.findSome?_eq_none_iff]
    intro r hr
    refine if_neg fun h => ?_
    have hfirst := first_le_of_mem_caseRuns r hr
    have hlt := hx.2
    omega
  unfold lowerChar
  rw [if_neg, hnone]
  rintro rfl
  exact absurd hx.2 (by decide)

/-- A character before the lowercase letters is no part of the lowercase form of another one. -/
theorem not_mem_lowerChar (hpos : 0 < x.toNat) (hx : x.toNat < 'a'.toNat) {c : Char} (hc : c ≠ x) :
    x ∉ lowerChar c := by
  unfold lowerChar
  split
  · intro hmem
    rcases List.mem_pair.1 hmem with rfl | rfl
    · exact absurd hx (by decide)
    · exact absurd hx (by decide)
  · split
    · next n hn =>
      intro hmem
      obtain ⟨r, hr, hlower⟩ := List.exists_of_findSome?_eq_some hn
      have hn' := eq_toNat_of_ofNat_eq (List.mem_singleton.1 hmem).symm hpos
      have htarget := target_le_of_mem_caseRuns r hr
      unfold CaseRun.lower? at hlower
      split at hlower
      · cases hlower
        omega
      · cases hlower
    · exact fun hmem => hc (List.mem_singleton.1 hmem).symm

theorem count_lowerChar (hx : IsEarly x) (c : Char) :
    (lowerChar c).count x = if c == x then 1 else 0 := by
  by_cases hc : c = x
  · rw [hc, lowerChar_self hx, List.count_singleton]
  · have hlt : x.toNat < 'a'.toNat := Nat.lt_trans hx.2 (by decide)
    rw [List.count_eq_zero.2 (not_mem_lowerChar hx.1 hlt hc), if_neg (by simpa using hc)]

theorem count_lowerAfter (hx : IsEarly x) (before cs : List Char) :
    (lowerAfter before cs).count x = cs.count x := by
  induction cs generalizing before with
  | nil => rfl
  | cons c cs ih =>
    rw [lowerAfter, List.count_append, ih, List.count_cons, Nat.add_comm]
    congr 1
    split
    · -- which of its two forms a sigma has depends on the text around it, but both are letters
      next hsigma =>
      have hlate : ∀ c : Char, 'A'.toNat ≤ c.toNat → ¬ c = x := by
        rintro c hc rfl
        exact absurd hx.2 (by omega)
      subst hsigma
      rw [List.count_singleton, if_neg, if_neg]
      · simpa using hlate 'Σ' (by decide)
      · split
        · simpa using hlate 'ς' (by decide)
        · simpa using hlate 'σ' (by decide)
    · exact count_lowerChar hx c

/-- A text has each of these characters as often as its lowercase form. -/
theorem count_lowercase (hx : IsEarly x) (s : String) :
    (lowercase s).toList.count x = s.toList.count x := by
  rw [lowercase, String.toList_ofList, count_lowerAfter hx]

theorem lowerChar_ne_nil (c : Char) : lowerChar c ≠ [] := by
  unfold lowerChar
  split
  · exact List.cons_ne_nil _ _
  · split
    · exact List.cons_ne_nil _ _
    · exact List.cons_ne_nil _ _

/-- No character gives way to nothing. -/
theorem lowercase_ne_empty {s : String} (h : s.toList ≠ []) : lowercase s ≠ "" := by
  obtain ⟨c, after, hs⟩ := List.exists_cons_of_ne_nil h
  rw [lowercase, hs, lowerAfter, ne_eq, String.ofList_eq_empty_iff, List.append_eq_nil_iff]
  rintro ⟨hc, -⟩
  split at hc
  · exact List.cons_ne_nil _ _ hc
  · exact lowerChar_ne_nil c hc

/-! ## Starts of texts -/

/-- A capital sigma ends the text, case-ignorable characters skipped: its lowercase form depends on
what comes next. -/
def EndsInSigma (cs : List Char) : Prop :=
  ∃ u w, cs = u ++ 'Σ' :: w ∧ ∀ c ∈ w, caseIgnorable.has c = true

theorem EndsInSigma.cons {cs : List Char} (h : EndsInSigma cs) (c : Char) :
    EndsInSigma (c :: cs) := by
  obtain ⟨u, w, rfl, hw⟩ := h
  exact ⟨c :: u, w, rfl, hw⟩

theorem not_endsInSigma_of_not_mem {cs : List Char} (h : 'Σ' ∉ cs) : ¬ EndsInSigma cs := by
  rintro ⟨u, w, rfl, -⟩
  exact h (List.mem_append_right u List.mem_cons_self)

theorem startsCased_cons (c : Char) (cs : List Char) :
    startsCased (c :: cs) = if caseIgnorable.has c then startsCased cs else cased.has c := by
  unfold startsCased
  rw [List.dropWhile_cons]
  cases caseIgnorable.has c <;> rfl

/-- A text tells how the word goes on as soon as one of its characters is not case-ignorable. -/
theorem startsCased_append {cs : List Char} (h : ∃ c ∈ cs, caseIgnorable.has c = false)
    (rest : List Char) : startsCased (cs ++ rest) = startsCased cs := by
  induction cs with
  | nil => exact absurd h (by simp)
  | cons c cs ih =>
    rw [List.cons_append, startsCased_cons, startsCased_cons]
    split
    · next hc =>
      obtain ⟨d, hd, hdc⟩ := h
      rcases List.mem_cons.1 hd with rfl | hd
      · exact absurd (hc.symm.trans hdc) (by decide)
      · exact ih ⟨d, hd, hdc⟩
    · rfl

theorem lowerAfter_append {cs : List Char} (h : ¬ EndsInSigma cs) (before rest : List Char) :
    lowerAfter before (cs ++ rest) =
      lowerAfter before cs ++ lowerAfter (cs.reverse ++ before) rest := by
  induction cs generalizing before with
  | nil => rfl
  | cons c cs ih =>
    have hfinal : c = 'Σ' → isFinalSigma before (cs ++ rest) = isFinalSigma before cs := by
      rintro rfl
      have hsome : ∃ c ∈ cs, caseIgnorable.has c = false := by
        by_contra hnone
        simp only [not_exists, not_and, Bool.not_eq_false] at hnone
        exact h ⟨[], cs, rfl, hnone⟩
      rw [isFinalSigma, isFinalSigma, startsCased_append hsome]
    rw [List.cons_append, lowerAfter, lowerAfter, ih fun hcs => h (hcs.cons c), List.reverse_cons,
      List.append_assoc, List.append_assoc, List.cons_append, List.nil_append]
    congr 1
    split
    · next hsigma => rw [hfinal hsigma]
    · rfl

/-- Lowercase texts start alike where the texts do, unless the start ends in a capital sigma. -/
theorem startsWith_lowercase {v s : String} (h : ¬ EndsInSigma v.toList)
    (hs : v.toList <+: s.toList) :
    (lowercase v).toList <+: (lowercase s).toList := by
  obtain ⟨rest, hrest⟩ := hs
  rw [lowercase, lowercase, String.toList_ofList, String.toList_ofList, ← hrest,
    lowerAfter_append h]
  exact List.prefix_append _ _

example : (lowercase "ΟΔΟΣ", lowercase "ΟΔΟΣΑ") = ("οδος", "οδοσα") := by decide +kernel

end SearchFilter
