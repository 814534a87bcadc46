import SearchFilter.Proofs.Regex.Isolation

/-!
# Regular expressions for elements and texts that are no lists

The marks of an element have a quote in them, so that no alternative that is bound to one is found
in a text without quotes. What is left are the alternatives between the first and the last of a
regular expression that has an anchor at its start: these the anchors say nothing about, and where
they are found the given regular expression is.

Main statements: `finds_elementRegex_iff_of_no_quote` and `finds_of_free`.
-/

namespace SearchFilter

namespace Regex

variable {p : String} {bs : List (List Regex)} {text : String}

/-- Nothing is bound to an alternative. -/
def Strand.Free (s : Strand) : Prop := s.opens = false ∧ s.closes = false

theorem Strand.around_of_free {s : Strand} (h : s.Free) (start finish : Regex) :
    s.around start finish = s.items := by
  rw [around, h.1, h.2]
  exact List.append_nil _

theorem quote_mem_of_opens {m : List Char} (h : Opens true m) : '"' ∈ m := by
  rcases h with rfl | rfl <;> decide

theorem quote_mem_of_closes {n : List Char} (h : Closes true n) : '"' ∈ n := by
  rcases h with rfl | rfl <;> decide

/-- Where an alternative is found with a mark bound to it, there is a quote. -/
theorem quote_mem_of_found {s : Strand} (h : ¬ s.Free) {cs : List Char}
    (hfound : (sequence (s.around opening closing)).Found cs) : '"' ∈ cs := by
  obtain ⟨before, x, after, rfl, hx⟩ := hfound
  rw [Strand.around, matches_sequence_append_iff] at hx
  obtain ⟨y, n, rfl, hy, hn⟩ := hx
  obtain ⟨m, w, rfl, hm, -⟩ := matches_sequence_append_iff.1 hy
  cases hopens : s.opens with
  | true =>
    rw [hopens] at hm
    have hword := hasWord_opening_iff.1
      ((matches_iff_hasWord rfl).1 (matches_sequence_singleton_iff.1 hm))
    simp [quote_mem_of_opens hword]
  | false =>
    cases hcloses : s.closes with
    | true =>
      rw [hcloses] at hn
      have hword := hasWord_closing_iff.1
        ((matches_iff_hasWord rfl).1 (matches_sequence_singleton_iff.1 hn))
      simp [quote_mem_of_closes hword]
    | false => exact absurd ⟨hopens, hcloses⟩ h

/-- In a text without quotes the regular expression for an element is found where one of its
alternatives is that is bound to no mark. -/
theorem finds_elementRegex_iff_of_no_quote (hread : (Anchored.of p).branches? = some bs)
    (hquote : '"' ∉ text.toList) :
    Finds (elementRegex p) text ↔ ∃ s ∈ (Anchored.of p).elementStrands bs,
      s.Free ∧ (sequence s.items).Found text.toList := by
  rw [finds_iff_of_branches? (branches?_elementRegex hread)]
  simp only [List.mem_map, exists_exists_and_eq_and]
  refine exists_congr fun s => and_congr_right fun _ => ?_
  constructor
  · intro hfound
    have hfree : s.Free := by
      by_contra hbound
      exact hquote (quote_mem_of_found hbound hfound)
    exact ⟨hfree, s.around_of_free hfree opening closing ▸ hfound⟩
  · rintro ⟨hfree, hfound⟩
    rwa [s.around_of_free hfree]

/-- An alternative that is bound to no mark is bound to no anchor either. -/
theorem finds_of_free (hread : (Anchored.of p).branches? = some bs) {s : Strand}
    (hs : s ∈ (Anchored.of p).elementStrands bs) (hfree : s.Free)
    (hfound : (sequence s.items).Found text.toList) : Finds p text := by
  rw [finds_iff_of_branches? (branches?_of_anchored hread)]
  unfold Anchored.elementStrands at hs
  split at hs
  · next hstart =>
    rw [hstart]
    refine ⟨_, List.mem_map_of_mem hs, ?_⟩
    rwa [s.around_of_free hfree]
  · rw [List.mem_singleton.1 hs] at hfree
    cases hfree.1

/-- Without an anchor at the start, and with a single alternative, something is bound to all there
is. -/
theorem not_free_of_mem_elementStrands {a : Anchored} (h : a.fromStart = false ∨ bs.length ≤ 1)
    {s : Strand} (hs : s ∈ a.elementStrands bs) : ¬ s.Free := by
  rintro ⟨hopens, -⟩
  have hfirst : s.opens = true := by
    unfold Anchored.elementStrands at hs
    split at hs
    · next hstart =>
      match bs, h, hs with
      | [], _, hs => cases hs
      | [b], _, hs => rw [List.mem_singleton.1 hs]
      | _ :: _ :: _, h, _ => simp [hstart] at h
    · rw [List.mem_singleton.1 hs]
  exact absurd (hfirst.symm.trans hopens) (by decide)

end Regex

end SearchFilter
