import SearchFilter.Proofs.Text.Lowercase
import SearchFilter.Proofs.Text.Split
import SearchFilter.Text.Basic

/-!
# Texts in lower case

The lowercase form of a letter has no other lowercase form: no letter that a run leads to is a
letter of a run again. So a lowercase text stays as it is, whatever stands around its letters. White
space and the signs of a text are in no run and are led to by none, so that a text and its
lowercase form have the same blanks, and as many pieces between separators.

Main statements: `lowercase_lowercase`, `Steady.all_lowerAfter` and, for the pieces,
`expands_filter_lowerAfter` with `Expands.length_nonemptyPieces_eq`.
-/

namespace SearchFilter

/-! ## Letters and their lowercase forms -/

/-- No letter that a run leads to is one of another run: they lie apart, or between its letters. -/
def CaseRun.avoids (r r' : CaseRun) : Bool :=
  Nat.blt (r.target + (r.last - r.first)) r'.first || Nat.blt r'.last r.target ||
    r'.step == 2 && (r.target + r'.first) % 2 == 1 && (r.step == 2 || r.first == r.last)

theorem avoids_of_mem_caseRuns {r r' : CaseRun} (hr : r ∈ caseRuns) (hr' : r' ∈ caseRuns) :
    r.avoids r' = true := by
  have htable : (caseRuns.all fun r => caseRuns.all fun r' => r.avoids r') = true := by
    decide +kernel
  exact List.all_eq_true.1 (List.all_eq_true.1 htable r hr) r' hr'

theorem CaseRun.lower?_eq_some_iff {r : CaseRun} {n m : ℕ} :
    r.lower? n = some m ↔
      r.first ≤ n ∧ n ≤ r.last ∧ (n - r.first) % r.step = 0 ∧ m = r.target + (n - r.first) := by
  unfold lower?
  split
  · next h => simp [h, eq_comm]
  · next h =>
    refine iff_of_false nofun fun h' => h ⟨h'.1, h'.2.1, h'.2.2.1⟩

theorem CaseRun.lower?_of_avoids {r r' : CaseRun} (h : r.avoids r' = true) {m n : ℕ}
    (hn : r.lower? n = some m) : r'.lower? m = none := by
  obtain ⟨hfirst, hlast, hstep, rfl⟩ := lower?_eq_some_iff.1 hn
  refine Option.eq_none_iff_forall_ne_some.2 fun k hk => ?_
  obtain ⟨hfirst', hlast', hstep', -⟩ := lower?_eq_some_iff.1 hk
  simp only [avoids, Bool.or_eq_true, Bool.and_eq_true, Nat.blt_eq, beq_iff_eq] at h
  rcases h with (h | h) | ⟨⟨htwo, hodd⟩, heven | hsingle⟩
  · omega
  · omega
  · rw [heven] at hstep
    rw [htwo] at hstep'
    omega
  · rw [htwo] at hstep'
    omega

/-- Where runs begin and lead to, there are characters, and `İ` is none of them. -/
theorem bounds_of_mem_caseRuns : ∀ r ∈ caseRuns,
    (r.target + (r.last - r.first) < 0xD800 ∨
      0xDFFF < r.target ∧ r.target + (r.last - r.first) < 0x110000) ∧
    (r.target + (r.last - r.first) < 'İ'.toNat ∨ 'İ'.toNat < r.target) := by
  decide +kernel

theorem toNat_of_lower? {r : CaseRun} (hr : r ∈ caseRuns) {m n : ℕ} (h : r.lower? n = some m) :
    (Char.ofNat m).toNat = m := by
  obtain ⟨-, hlast, -, rfl⟩ := CaseRun.lower?_eq_some_iff.1 h
  have hvalid : (r.target + (n - r.first)).isValidChar := by
    rcases (bounds_of_mem_caseRuns r hr).1 with hlow | ⟨hhigh, hmax⟩
    · exact .inl (by omega)
    · exact .inr ⟨by omega, by omega⟩
  have hchar : Char.ofNat (r.target + (n - r.first)) = Char.ofNatAux _ hvalid := dif_pos hvalid
  rw [hchar]
  exact UInt32.toNat_ofNatLT

/-- A character of a lowercase form: of that of `İ`, from a run, or the character itself. -/
theorem mem_lowerChar_cases {c d : Char} (h : d ∈ lowerChar c) :
    (c = 'İ' ∧ (d = 'i' ∨ d = '\u0307')) ∨
      (∃ r ∈ caseRuns, ∃ m, r.lower? c.toNat = some m ∧ d = Char.ofNat m) ∨
      d = c ∧ lowerChar c = [c] := by
  unfold lowerChar at h ⊢
  split at h
  · next hc => exact .inl ⟨hc, List.mem_pair.1 h⟩
  · next hc =>
    split at h
    · next m hm =>
      obtain ⟨r, hr, hlower⟩ := List.exists_of_findSome?_eq_some hm
      exact .inr (.inl ⟨r, hr, m, hlower, List.mem_singleton.1 h⟩)
    · exact .inr (.inr ⟨List.mem_singleton.1 h, if_neg hc⟩)

/-- A character that is its own lowercase form, wherever it stands. -/
def Settled (c : Char) : Prop := c ≠ 'Σ' ∧ lowerChar c = [c]

instance : DecidablePred Settled := fun c => by
  unfold Settled
  infer_instance

theorem lowerChar_sigma : lowerChar 'Σ' = ['σ'] := rfl

theorem settled_of_mem_lowerChar {c d : Char} (h : d ∈ lowerChar c) : Settled d := by
  have hself : lowerChar d = [d] := by
    rcases mem_lowerChar_cases h with ⟨-, rfl | rfl⟩ | ⟨r, hr, m, hm, rfl⟩ | ⟨rfl, hself⟩
    · rfl
    · rfl
    · have hnone : caseRuns.findSome? (·.lower? m) = none :=
        List.findSome?_eq_none_iff.2 fun r' hr' =>
          CaseRun.lower?_of_avoids (avoids_of_mem_caseRuns hr hr') hm
      have hdotless : Char.ofNat m ≠ 'İ' := by
        intro heq
        have hm' := toNat_of_lower? hr hm
        rw [heq] at hm'
        obtain ⟨-, hlast, -, hm''⟩ := CaseRun.lower?_eq_some_iff.1 hm
        have hbounds := (bounds_of_mem_caseRuns r hr).2
        omega
      rw [lowerChar, if_neg hdotless, toNat_of_lower? hr hm, hnone]
    · exact hself
  refine ⟨?_, hself⟩
  rintro rfl
  rw [lowerChar_sigma] at hself
  exact absurd hself (by decide)

/-! ## Lowercase forms between other characters -/

/-- The lowercase form of a character that stands between two texts. -/
def lowerBetween (before : List Char) (c : Char) (after : List Char) : List Char :=
  if c = 'Σ' then [if isFinalSigma before after then 'ς' else 'σ'] else lowerChar c

theorem lowerAfter_cons (before : List Char) (c : Char) (after : List Char) :
    lowerAfter before (c :: after) =
      lowerBetween before c after ++ lowerAfter (c :: before) after :=
  rfl

theorem lowerBetween_sigma (before after : List Char) :
    lowerBetween before 'Σ' after = [if isFinalSigma before after then 'ς' else 'σ'] :=
  if_pos rfl

theorem lowerBetween_of_ne {c : Char} (h : c ≠ 'Σ') (before after : List Char) :
    lowerBetween before c after = lowerChar c :=
  if_neg h

/-- A character takes its form from the text around it by way of the ends of words alone. -/
theorem lowerBetween_congr {before before' after after' : List Char}
    (h : isFinalSigma before after = isFinalSigma before' after') (c : Char) :
    lowerBetween before c after = lowerBetween before' c after' := by
  unfold lowerBetween
  rw [h]

theorem lowerBetween_ne_nil (before : List Char) (c : Char) (after : List Char) :
    lowerBetween before c after ≠ [] := by
  unfold lowerBetween
  split
  · exact List.cons_ne_nil _ _
  · exact lowerChar_ne_nil c

theorem settled_of_mem_lowerBetween {before after : List Char} {c d : Char}
    (h : d ∈ lowerBetween before c after) : Settled d := by
  unfold lowerBetween at h
  split at h
  · rw [List.mem_singleton.1 h]
    split <;> exact ⟨by decide, rfl⟩
  · exact settled_of_mem_lowerChar h

theorem settled_of_mem_lowerAfter {before cs : List Char} {d : Char}
    (h : d ∈ lowerAfter before cs) : Settled d := by
  induction cs generalizing before with
  | nil => cases h
  | cons c cs ih =>
    rw [lowerAfter_cons, List.mem_append] at h
    exact h.elim settled_of_mem_lowerBetween ih

theorem lowerAfter_of_settled {cs : List Char} (h : ∀ c ∈ cs, Settled c) (before : List Char) :
    lowerAfter before cs = cs := by
  induction cs generalizing before with
  | nil => rfl
  | cons c cs ih =>
    obtain ⟨⟨hsigma, hself⟩, hcs⟩ := List.forall_mem_cons.1 h
    rw [lowerAfter_cons, lowerBetween_of_ne hsigma, hself, ih hcs]
    rfl

theorem toList_lowercase (s : String) : (lowercase s).toList = lowerAfter [] s.toList :=
  String.toList_ofList

/-- A lowercase text is its own lowercase form. -/
theorem lowercase_lowercase (s : String) : lowercase (lowercase s) = lowercase s := by
  have hsettled : ∀ c ∈ (lowercase s).toList, Settled c := by
    rw [toList_lowercase]
    exact fun c hc => settled_of_mem_lowerAfter hc
  rw [lowercase, lowerAfter_of_settled hsettled, String.ofList_toList]

/-! ## What letter case does not change -/

/-- A property that the characters of a lowercase form have when the character has it. -/
def Steady (q : Char → Bool) : Prop := q 'ς' = q 'σ' ∧ ∀ c, ∀ d ∈ lowerChar c, q d = q c

theorem Steady.of_mem_lowerBetween {q : Char → Bool} (hq : Steady q) {before after : List Char}
    {c d : Char} (h : d ∈ lowerBetween before c after) : q d = q c := by
  unfold lowerBetween at h
  split at h
  · next hc =>
    have hsigma : q 'σ' = q c := by
      rw [hc]
      exact hq.2 'Σ' 'σ' (lowerChar_sigma ▸ List.mem_cons_self)
    rw [List.mem_singleton.1 h]
    split
    · exact hq.1.trans hsigma
    · exact hsigma
  · exact hq.2 c d h

theorem Steady.eq_of_mem_lowerBetween {x : Char} (hx : Steady (· == x)) {before after : List Char}
    {c : Char} (h : x ∈ lowerBetween before c after) : c = x :=
  beq_iff_eq.1 ((hx.of_mem_lowerBetween h).symm.trans (beq_self_eq_true x))

theorem Steady.or {q q' : Char → Bool} (hq : Steady q) (hq' : Steady q') :
    Steady fun c => q c || q' c :=
  ⟨congrArg₂ (· || ·) hq.1 hq'.1, fun c d hd => congrArg₂ (· || ·) (hq.2 c d hd) (hq'.2 c d hd)⟩

theorem Steady.not {q : Char → Bool} (hq : Steady q) : Steady fun c => !q c :=
  ⟨congrArg (!·) hq.1, fun c d hd => congrArg (!·) (hq.2 c d hd)⟩

/-- A sign before the lowercase letters is the lowercase form of itself alone. -/
theorem steady_sign {x : Char} (hpos : 0 < x.toNat) (hx : x.toNat < 'a'.toNat)
    (hself : lowerChar x = [x]) : Steady (· == x) := by
  have hlate : ∀ c : Char, 'a'.toNat ≤ c.toNat → (c == x) = false := by
    rintro c hc
    refine beq_eq_false_iff_ne.2 ?_
    rintro rfl
    omega
  refine ⟨(hlate 'ς' (by decide)).trans (hlate 'σ' (by decide)).symm, fun c d hd => ?_⟩
  by_cases hc : c = x
  · subst hc
    rw [hself] at hd
    rw [List.mem_singleton.1 hd]
  · have hd' : d ≠ x := fun heq => not_mem_lowerChar hpos hx hc (heq ▸ hd)
    exact (beq_eq_false_iff_ne.2 hd').trans (beq_eq_false_iff_ne.2 hc).symm

theorem IsEarly.steady {x : Char} (hx : IsEarly x) : Steady (· == x) :=
  steady_sign hx.1 (Nat.lt_trans hx.2 (by decide)) (lowerChar_self hx)

theorem IsEarly.settled {x : Char} (hx : IsEarly x) : Settled x := by
  refine ⟨?_, lowerChar_self hx⟩
  rintro rfl
  exact absurd hx.2 (by decide)

theorem spaces_of_mem_caseRuns : ∀ r ∈ caseRuns, ∀ i ∈ whiteSpace.intervals,
    (r.last < i.1 ∨ i.2 < r.first) ∧ (r.target + (r.last - r.first) < i.1 ∨ i.2 < r.target) := by
  decide +kernel

theorem steady_isSpace : Steady isSpace := by
  refine ⟨by decide, fun c d hd => ?_⟩
  rcases mem_lowerChar_cases hd with ⟨rfl, rfl | rfl⟩ | ⟨r, hr, m, hm, rfl⟩ | ⟨rfl, -⟩
  · decide
  · decide
  · have hnat := toNat_of_lower? hr hm
    obtain ⟨hfirst, hlast, -, hm⟩ := CaseRun.lower?_eq_some_iff.1 hm
    have hletter : isSpace c = false := by
      refine Bool.eq_false_iff.2 fun hspace => ?_
      obtain ⟨i, hi, hle, hge⟩ := CharSet.has_iff.1 hspace
      have happart := (spaces_of_mem_caseRuns r hr i hi).1
      omega
    have hlower : isSpace (Char.ofNat m) = false := by
      refine Bool.eq_false_iff.2 fun hspace => ?_
      obtain ⟨i, hi, hle, hge⟩ := CharSet.has_iff.1 hspace
      have happart := (spaces_of_mem_caseRuns r hr i hi).2
      omega
    rw [hletter, hlower]
  · rfl

theorem Steady.all_lowerAfter {q : Char → Bool} (hq : Steady q) (before cs : List Char) :
    (lowerAfter before cs).all q = cs.all q := by
  induction cs generalizing before with
  | nil => rfl
  | cons c cs ih =>
    rw [lowerAfter_cons, List.all_append, ih, List.all_cons]
    congr 1
    obtain ⟨d, ds, heq⟩ := List.exists_cons_of_ne_nil (lowerBetween_ne_nil before c cs)
    have hall : ∀ x ∈ d :: ds, q x = q c := fun x hx => hq.of_mem_lowerBetween (heq ▸ hx)
    rw [heq, List.all_cons, hall d List.mem_cons_self]
    cases hc : q c with
    | false => rfl
    | true => exact List.all_eq_true.2 fun x hx => (hall x (List.mem_cons_of_mem d hx)).trans hc

theorem isBlank_lowercase (s : String) : isBlank (lowercase s) = isBlank s := by
  rw [isBlank, isBlank, toList_lowercase, steady_isSpace.all_lowerAfter]

/-! ## Pieces -/

/-- One text comes of another one when each of its characters gives way to some that are no
separators either. Separators stay. -/
inductive Expands (p : Char → Bool) : List Char → List Char → Prop
  | nil : Expands p [] []
  | separator {c cs ds} (hc : p c = true) (rest : Expands p cs ds) : Expands p (c :: cs) (c :: ds)
  | other {c block cs ds} (hc : p c = false) (hne : block ≠ []) (hblock : ∀ d ∈ block, p d = false)
      (rest : Expands p cs ds) : Expands p (c :: cs) (block ++ ds)

section
variable {p : Char → Bool} {cs ds block : List Char}

theorem cut_append_of_forall (hblock : ∀ d ∈ block, p d = false) (ds : List Char) :
    cut p (block ++ ds) = (block ++ (cut p ds).1, (cut p ds).2) := by
  induction block with
  | nil => rfl
  | cons d block ih =>
    obtain ⟨hd, hblock⟩ := List.forall_mem_cons.1 hblock
    rw [List.cons_append, cut, ih hblock, hd]
    rfl

/-- The texts have as many pieces, of which the same are empty. -/
theorem Expands.map_isEmpty_pieces (h : Expands p cs ds) :
    (pieces p ds).map List.isEmpty = (pieces p cs).map List.isEmpty := by
  induction h with
  | nil => rfl
  | separator hc _ ih =>
    rw [pieces, pieces, cut, cut, hc]
    exact congrArg (true :: ·) ih
  | @other c block cs ds hc hne hblock _ ih =>
    have hlater : (cut p ds).2.map List.isEmpty = (cut p cs).2.map List.isEmpty :=
      (List.cons.inj ih).2
    rw [pieces, pieces, cut_append_of_forall hblock, cut, hc]
    refine congrArg₂ List.cons ?_ hlater
    obtain ⟨d, block, rfl⟩ := List.exists_cons_of_ne_nil hne
    rfl

theorem Expands.length_nonemptyPieces_eq (h : Expands p cs ds) :
    (nonemptyPieces p ds).length = (nonemptyPieces p cs).length := by
  have hcount : ∀ s : List Char, (nonemptyPieces p s).length =
      ((pieces p s).map List.isEmpty).countP (fun b => !b) := by
    intro s
    rw [nonemptyPieces, ← List.countP_eq_length_filter, List.countP_map]
    rfl
  rw [hcount, hcount, h.map_isEmpty_pieces]

/-- A text expands to its lowercase form, also when characters of a kind are left out of both. -/
theorem expands_filter_lowerAfter {q : Char → Bool} (hp : Steady p) (hq : Steady q)
    (hself : ∀ c, p c = true → Settled c) (before cs : List Char) :
    Expands p (cs.filter q) ((lowerAfter before cs).filter q) := by
  induction cs generalizing before with
  | nil => exact .nil
  | cons c cs ih =>
    have hblock : ∀ d ∈ lowerBetween before c cs, q d = q c := fun d hd => hq.of_mem_lowerBetween hd
    rw [lowerAfter_cons, List.filter_append]
    cases hqc : q c with
    | false =>
      have hnone : (lowerBetween before c cs).filter q = [] :=
        List.filter_eq_nil_iff.2 fun d hd => by simp [hblock d hd, hqc]
      rw [List.filter_cons_of_neg (by simp [hqc]), hnone]
      exact ih _
    | true =>
      have hall : (lowerBetween before c cs).filter q = lowerBetween before c cs :=
        List.filter_eq_self.2 fun d hd => (hblock d hd).trans hqc
      rw [List.filter_cons_of_pos hqc, hall]
      cases hc : p c with
      | true =>
        obtain ⟨hsigma, hlower⟩ := hself c hc
        rw [lowerBetween_of_ne hsigma, hlower]
        exact .separator hc (ih _)
      | false =>
        exact .other hc (lowerBetween_ne_nil _ _ _)
          (fun d hd => (hp.of_mem_lowerBetween hd).trans hc) (ih _)

end

end SearchFilter
