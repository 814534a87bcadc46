import SearchFilter.Proofs.Text.Settled

/-!
# Signs between letters

A sign such as `%` is neither a letter nor passed over when the end of a word is looked for: it is
its own lowercase form, and no word goes on across it. Where such signs are put around characters or
in the place of others of their kind, the letters keep their lowercase forms.

Main statement: `Inscribes.lowerAfter_flatMap_append`.
-/

namespace SearchFilter

/-- A character that ends every word and has no part in letter case. -/
structure Inert (c : Char) : Prop where
  settled : Settled c
  not_ignorable : caseIgnorable.has c = false
  not_cased : cased.has c = false

theorem inert_iff {c : Char} :
    Inert c ↔ Settled c ∧ caseIgnorable.has c = false ∧ cased.has c = false :=
  ⟨fun h => ⟨h.1, h.2, h.3⟩, fun h => ⟨h.1, h.2.1, h.2.2⟩⟩

instance : DecidablePred Inert := fun _ => decidable_of_iff _ inert_iff.symm

section
variable {c : Char} {signs : List Char}

theorem Inert.startsCased_cons (h : Inert c) (cs : List Char) : startsCased (c :: cs) = false := by
  rw [SearchFilter.startsCased_cons, h.not_ignorable, h.not_cased]
  rfl

theorem Inert.lowerAfter_cons (h : Inert c) (before cs : List Char) :
    lowerAfter before (c :: cs) = c :: lowerAfter (c :: before) cs := by
  rw [SearchFilter.lowerAfter_cons, lowerBetween_of_ne h.settled.1, h.settled.2]
  rfl

theorem startsCased_append_of_inert (hne : signs ≠ []) (h : ∀ c ∈ signs, Inert c)
    (cs : List Char) : startsCased (signs ++ cs) = false := by
  obtain ⟨c, signs, rfl⟩ := List.exists_cons_of_ne_nil hne
  exact (h c List.mem_cons_self).startsCased_cons _

theorem lowerAfter_append_of_inert (h : ∀ c ∈ signs, Inert c) (before cs : List Char) :
    lowerAfter before (signs ++ cs) = signs ++ lowerAfter (signs.reverse ++ before) cs := by
  induction signs generalizing before with
  | nil => rfl
  | cons c signs ih =>
    obtain ⟨hc, hsigns⟩ := List.forall_mem_cons.1 h
    rw [List.cons_append, hc.lowerAfter_cons, ih hsigns, List.reverse_cons, List.append_assoc]
    rfl

end

/-! ## Texts written in signs -/

/-- A way to write texts: a sign is written in signs, and any other character and its lowercase
forms as they are. -/
def Inscribes (g : Char → List Char) : Prop :=
  ∀ c, (Inert c ∧ g c ≠ [] ∧ ∀ d ∈ g c, Inert d) ∨
    g c = [c] ∧ ∀ before after, ∀ d ∈ lowerBetween before c after, g d = [d]

namespace Inscribes

variable {g : Char → List Char} {tail : List Char}

/-- What is written tells which letter comes first. -/
theorem startsCased_flatMap_append (hg : Inscribes g) (htail : ∀ c ∈ tail, Inert c)
    (cs : List Char) : startsCased (cs.flatMap g ++ tail) = startsCased cs := by
  induction cs with
  | nil =>
    cases tail with
    | nil => rfl
    | cons c tail => exact (htail c List.mem_cons_self).startsCased_cons tail
  | cons c cs ih =>
    rw [List.flatMap_cons, List.append_assoc]
    rcases hg c with ⟨hc, hne, hsigns⟩ | ⟨hself, -⟩
    · rw [startsCased_append_of_inert hne hsigns, hc.startsCased_cons]
    · rw [hself, List.singleton_append, startsCased_cons, startsCased_cons, ih]

/-- A text can be put into lower case before or after it is written. What has been read before it
counts by its last letter only. -/
theorem lowerAfter_flatMap_append (hg : Inscribes g) (htail : ∀ c ∈ tail, Inert c) (cs : List Char)
    {before before' : List Char} (h : startsCased before' = startsCased before) :
    lowerAfter before' (cs.flatMap g ++ tail) = (lowerAfter before cs).flatMap g ++ tail := by
  induction cs generalizing before before' with
  | nil =>
    have hsigns := lowerAfter_append_of_inert htail before' []
    rwa [List.append_nil, lowerAfter, List.append_nil] at hsigns
  | cons c cs ih =>
    rw [List.flatMap_cons, List.append_assoc]
    rcases hg c with ⟨hc, hne, hsigns⟩ | ⟨hself, hlower⟩
    · -- whatever stood before, no word goes on after the sign or after what is written for it
      have hnext : startsCased ((g c).reverse ++ before') = startsCased (c :: before) := by
        rw [hc.startsCased_cons, startsCased_append_of_inert (List.reverse_ne_nil_iff.2 hne)
          fun d hd => hsigns d (List.mem_reverse.1 hd)]
      rw [lowerAfter_append_of_inert hsigns, ih hnext, hc.lowerAfter_cons, List.flatMap_cons,
        List.append_assoc]
    · have hnext : startsCased (c :: before') = startsCased (c :: before) := by
        rw [startsCased_cons, startsCased_cons, h]
      have hsame : lowerBetween before' c (cs.flatMap g ++ tail) = lowerBetween before c cs := by
        refine lowerBetween_congr ?_ c
        rw [isFinalSigma, isFinalSigma, h, hg.startsCased_flatMap_append htail]
      have hwritten : (lowerBetween before c cs).flatMap g = lowerBetween before c cs :=
        (List.flatMap_congr (hlower before cs)).trans (List.flatMap_singleton' _)
      rw [hself, List.singleton_append, lowerAfter_cons, lowerAfter_cons, hsame, ih hnext,
        List.flatMap_append, hwritten, List.append_assoc]

end Inscribes

end SearchFilter
