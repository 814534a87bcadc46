import SearchFilter.Proofs.Except
import SearchFilter.Proofs.Selector.Derivation

/-!
# Runs of the reader

How reading goes on from text to text, as rules that say nothing of lengths: where a chain begins,
it goes on turn by turn, one for each connective that is taken, and a parenthesis begins a chain
inside the group. A run counts its turns and its groups.

Every text has a run, and it comes to what is read.

Main statements: `Selector.hasRun_text` and `Selector.Runs.read_eq`.
-/

namespace SearchFilter.Selector

/-- What reading comes to: a selector and what is left of the text, or a failure. -/
abbrev Reading := Except Failure (Selector × List Char)

/-- What is left of the text, in either case. -/
def unread : Reading → List Char
  | .ok (_, rest) => rest
  | .error f => f.rest

@[simp] theorem unread_ok (x : Selector) (rest : List Char) : unread (.ok (x, rest)) = rest := rfl

@[simp] theorem unread_error (f : Failure) : unread (.error f) = f.rest := rfl

section
variable {α : Type} {p : List Char → Prop}

/-- What is read, without the bound on what is left. -/
def plain (r : Except Failure (α × { t : List Char // p t })) : Except Failure (α × List Char) :=
  r.map fun (a, t) => (a, t.1)

theorem plain_eq_ok_iff {r : Except Failure (α × { t : List Char // p t })} {a : α}
    {rest : List Char} : plain r = .ok (a, rest) ↔ Gives r a rest := by
  unfold plain
  rw [map_eq_ok_iff]
  constructor
  · rintro ⟨⟨b, t⟩, rfl, heq⟩
    cases heq
    exact gives_ok.2 ⟨rfl, rfl⟩
  · rintro ⟨h, rfl⟩
    exact ⟨_, rfl, rfl⟩

theorem plain_eq_error_iff {r : Except Failure (α × { t : List Char // p t })} {f : Failure} :
    plain r = .error f ↔ r = .error f := by
  cases r <;> simp [plain, Except.map]

end

/-! ## Stages -/

/-- What the reader is about at some point of a text. -/
inductive Stage where
  | phrase (φ : Phrase)
  /-- To go on after some operands of a connective. -/
  | more (op : Connective) (left : Selector)
  /-- The text as a whole. -/
  | text

/-- What is read at a stage. -/
def Stage.read : Stage → List Char → Reading
  | phrase (.chain op), s => plain (readChain op s)
  | phrase .primary, s => plain (readPrimary s)
  | more op left, s => plain (readMore op left s)
  | text, s => (readAll s).map fun x => (x, [])

variable {op : Connective} {s t u : List Char} {x left : Selector} {f : Failure} {σ : Stage}
  {r : Reading} {n m : Nat}

theorem read_operand (op : Connective) (s : List Char) :
    (Stage.phrase (.operand op)).read s = plain (readOperand op s) := by
  cases op with
  | and =>
    rw [readOperand_and]
    rfl
  | or =>
    rw [readOperand_or]
    rfl

theorem read_chain (op : Connective) (s : List Char) :
    (Stage.phrase (.chain op)).read s =
      (Stage.phrase (.operand op)).read s >>= fun a => (Stage.more op a.1).read a.2 := by
  rw [read_operand, Stage.read, readChain]
  split
  · next f h =>
    rw [h]
    rfl
  · next left s₁ h₁ h =>
    have hmore : plain (readOperand op s) >>= (fun a => (Stage.more op a.1).read a.2) =
        plain (readMore op left s₁) := by
      rw [h]
      rfl
    rw [hmore]
    split
    · next f hf =>
      rw [hf]
      rfl
    · next all s₂ h₂ hall =>
      rw [hall]
      rfl

theorem read_more_of_none (h : takeConnective? op (skipSpace s) = none) (left : Selector) :
    (Stage.more op left).read s = .ok (left, skipSpace s) := by
  rw [Stage.read, readMore, h]
  rfl

theorem read_more_of_some {t : Shorter (skipSpace s)}
    (h : takeConnective? op (skipSpace s) = some t) (left : Selector) :
    (Stage.more op left).read s = (Stage.phrase (.operand op)).read t.1 >>= fun a =>
      (Stage.more op (.logical op left a.1)).read a.2 := by
  rw [read_operand, Stage.read, readMore]
  split
  · next hnone =>
    rw [h] at hnone
    cases hnone
  · next s₁ h₁ hsome =>
    rw [h] at hsome
    cases hsome
    split
    · next f hf =>
      rw [hf]
      rfl
    · next right s₂ h₂ hright =>
      have hmore : plain (readOperand op s₁) >>= (fun a =>
          (Stage.more op (.logical op left a.1)).read a.2) =
            plain (readMore op (.logical op left right) s₂) := by
        rw [hright]
        rfl
      rw [hmore]
      split
      · next f hf =>
        rw [hf]
        rfl
      · next all s₃ h₃ hall =>
        rw [hall]
        rfl

/-- What closes a group that has been read. -/
def closeGroup (x : Selector) (s : List Char) : Reading :=
  match skipSpace s with
  | ')' :: rest => .ok (.group x, rest)
  | other => .error ⟨.unclosedGroup, other⟩

theorem closeGroup_of_closing {v : List Char} (h : skipSpace s = ')' :: v) (x : Selector) :
    closeGroup x s = .ok (.group x, v) := by
  simp only [closeGroup, h]

theorem closeGroup_of_not (h : ∀ v, skipSpace s ≠ ')' :: v) (x : Selector) :
    closeGroup x s = .error ⟨.unclosedGroup, skipSpace s⟩ := by
  rw [closeGroup]
  split
  · next v hv => exact absurd hv (h v)
  · rfl

theorem read_primary_of_opening (h : skipSpace s = '(' :: t) :
    (Stage.phrase .primary).read s =
      (Stage.phrase (.chain .or)).read t >>= fun a => closeGroup a.1 a.2 := by
  have hprimary : (Stage.phrase .primary).read s = plain (readPrimary s) := rfl
  rw [hprimary, readPrimary]
  split
  · next s₁ hs =>
    cases h.symm.trans hs
    rw [Stage.read]
    split
    · next f hf =>
      rw [hf]
      rfl
    · next inner s₂ h₂ hinner =>
      have hclose : plain (readChain .or t) >>= (fun a => closeGroup a.1 a.2) =
          closeGroup inner s₂ := by
        rw [hinner]
        rfl
      rw [hclose]
      split
      · next s₃ hs₃ => exact (closeGroup_of_closing hs₃ inner).symm
      · next hother => exact (closeGroup_of_not hother inner).symm
  · next hs => exact absurd h (hs t)

theorem read_primary_of_not (h : ∀ t, skipSpace s ≠ '(' :: t) :
    (Stage.phrase .primary).read s = plain (readComparison (skipSpace s)) := by
  rw [Stage.read, readPrimary]
  split
  · next s₁ hs => exact absurd hs (h s₁)
  · split
    · next f hf =>
      rw [hf]
      rfl
    · next c rest hrest hc =>
      rw [hc]
      rfl

/-- What ends a text: nothing may be left of it. -/
def endText (x : Selector) (s : List Char) : Reading :=
  match skipSpace s with
  | [] => .ok (x, [])
  | left => .error ⟨.leftover (String.ofList left), left⟩

theorem endText_of_nil (h : skipSpace s = []) (x : Selector) : endText x s = .ok (x, []) := by
  simp only [endText, h]

theorem endText_of_ne_nil (h : skipSpace s ≠ []) (x : Selector) :
    endText x s = .error ⟨.leftover (String.ofList (skipSpace s)), skipSpace s⟩ := by
  rw [endText]
  split
  · next hs => exact absurd hs h
  · rfl

theorem read_text_of_nil (h : skipSpace s = []) :
    Stage.text.read s = .error ⟨.empty, []⟩ := by
  rw [Stage.read, readAll, h]
  rfl

theorem read_text_of_ne_nil (h : skipSpace s ≠ []) :
    Stage.text.read s =
      (Stage.phrase (.chain .or)).read (skipSpace s) >>= fun a => endText a.1 a.2 := by
  have htext : Stage.text.read s = (readAll s).map fun x => (x, []) := rfl
  rw [htext, readAll]
  split
  · next hs => exact absurd hs h
  · next c t hs =>
    rw [hs, Stage.read]
    split
    · next f hf =>
      rw [hf]
      rfl
    · next selector rest hrest hread =>
      have hend : plain (readChain .or (c :: t)) >>= (fun a => endText a.1 a.2) =
          endText selector rest := by
        rw [hread]
        rfl
      rw [hend]
      split
      · next hnil => exact (endText_of_nil hnil selector).symm
      · next hleft => exact (endText_of_ne_nil hleft selector).symm

/-! ## Runs -/

/-- The runs of the reader at a stage of a text, with the number of their turns and groups, and what
they come to. -/
inductive Runs : Stage → List Char → Nat → Reading → Prop
  | chainStuck {op : Connective} {s : List Char} {n : Nat} {f : Failure}
      (hfirst : Runs (.phrase (.operand op)) s n (.error f)) :
      Runs (.phrase (.chain op)) s n (.error f)
  | chain {op : Connective} {s t : List Char} {n m : Nat} {x : Selector} {r : Reading}
      (hfirst : Runs (.phrase (.operand op)) s n (.ok (x, t))) (hmore : Runs (.more op x) t m r) :
      Runs (.phrase (.chain op)) s (n + m) r
  | stop {op : Connective} {s : List Char} (x : Selector)
      (h : takeConnective? op (skipSpace s) = none) :
      Runs (.more op x) s 0 (.ok (x, skipSpace s))
  | turnStuck {op : Connective} {s : List Char} {t : Shorter (skipSpace s)} {n : Nat} {f : Failure}
      (x : Selector) (h : takeConnective? op (skipSpace s) = some t)
      (hnext : Runs (.phrase (.operand op)) t.1 n (.error f)) :
      Runs (.more op x) s (n + 1) (.error f)
  | turn {op : Connective} {s u : List Char} {t : Shorter (skipSpace s)} {n m : Nat}
      {x y : Selector} {r : Reading} (h : takeConnective? op (skipSpace s) = some t)
      (hnext : Runs (.phrase (.operand op)) t.1 n (.ok (y, u)))
      (hmore : Runs (.more op (.logical op x y)) u m r) :
      Runs (.more op x) s (n + 1 + m) r
  | groupStuck {s t : List Char} {n : Nat} {f : Failure} (h : skipSpace s = '(' :: t)
      (hinner : Runs (.phrase (.chain .or)) t n (.error f)) :
      Runs (.phrase .primary) s (n + 1) (.error f)
  | group {s t u v : List Char} {n : Nat} {x : Selector} (h : skipSpace s = '(' :: t)
      (hinner : Runs (.phrase (.chain .or)) t n (.ok (x, u))) (hclosing : skipSpace u = ')' :: v) :
      Runs (.phrase .primary) s (n + 1) (.ok (.group x, v))
  | unclosed {s t u : List Char} {n : Nat} {x : Selector} (h : skipSpace s = '(' :: t)
      (hinner : Runs (.phrase (.chain .or)) t n (.ok (x, u)))
      (hclosing : ∀ v, skipSpace u ≠ ')' :: v) :
      Runs (.phrase .primary) s (n + 1) (.error ⟨.unclosedGroup, skipSpace u⟩)
  | comparison {s : List Char} (h : ∀ t, skipSpace s ≠ '(' :: t) :
      Runs (.phrase .primary) s 0 (plain (readComparison (skipSpace s)))
  | blank {s : List Char} (h : skipSpace s = []) : Runs .text s 0 (.error ⟨.empty, []⟩)
  | textStuck {s : List Char} {n : Nat} {f : Failure} (h : skipSpace s ≠ [])
      (hall : Runs (.phrase (.chain .or)) (skipSpace s) n (.error f)) : Runs .text s n (.error f)
  | leftover {s t : List Char} {n : Nat} {x : Selector} (h : skipSpace s ≠ [])
      (hall : Runs (.phrase (.chain .or)) (skipSpace s) n (.ok (x, t))) (hend : skipSpace t ≠ []) :
      Runs .text s n (.error ⟨.leftover (String.ofList (skipSpace t)), skipSpace t⟩)
  | text {s t : List Char} {n : Nat} {x : Selector} (h : skipSpace s ≠ [])
      (hall : Runs (.phrase (.chain .or)) (skipSpace s) n (.ok (x, t))) (hend : skipSpace t = []) :
      Runs .text s n (.ok (x, []))

/-- A run comes to what is read. -/
theorem Runs.read_eq (h : Runs σ s n r) : σ.read s = r := by
  induction h with
  | chainStuck _ ih =>
    rw [read_chain, ih]
    rfl
  | chain _ _ ihfirst ihmore =>
    rw [read_chain, ihfirst]
    exact ihmore
  | stop x h => exact read_more_of_none h x
  | turnStuck x h _ ih =>
    rw [read_more_of_some h, ih]
    rfl
  | turn h _ _ ihnext ihmore =>
    rw [read_more_of_some h, ihnext]
    exact ihmore
  | groupStuck h _ ih =>
    rw [read_primary_of_opening h, ih]
    rfl
  | group h _ hclosing ih =>
    rw [read_primary_of_opening h, ih]
    exact closeGroup_of_closing hclosing _
  | unclosed h _ hclosing ih =>
    rw [read_primary_of_opening h, ih]
    exact closeGroup_of_not hclosing _
  | comparison h => exact read_primary_of_not h
  | blank h => exact read_text_of_nil h
  | textStuck h _ ih =>
    rw [read_text_of_ne_nil h, ih]
    rfl
  | leftover h _ hend ih =>
    rw [read_text_of_ne_nil h, ih]
    exact endText_of_ne_nil hend _
  | text h _ hend ih =>
    rw [read_text_of_ne_nil h, ih]
    exact endText_of_nil hend _

/-! ## Every text has a run -/

theorem Runs.closeGroup (h : skipSpace s = '(' :: t)
    (hinner : Runs (.phrase (.chain .or)) t n (.ok (x, u))) :
    Runs (.phrase .primary) s (n + 1) (Selector.closeGroup x u) := by
  by_cases hclosing : ∃ v, skipSpace u = ')' :: v
  · obtain ⟨v, hv⟩ := hclosing
    rw [closeGroup_of_closing hv]
    exact .group h hinner hv
  · rw [closeGroup_of_not (not_exists.1 hclosing)]
    exact .unclosed h hinner (not_exists.1 hclosing)

theorem Runs.endText (h : skipSpace s ≠ [])
    (hall : Runs (.phrase (.chain .or)) (skipSpace s) n (.ok (x, t))) :
    Runs .text s n (Selector.endText x t) := by
  by_cases hend : skipSpace t = []
  · rw [endText_of_nil hend]
    exact .text h hall hend
  · rw [endText_of_ne_nil hend]
    exact .leftover h hall hend

/-- The reader has a run at a stage of a text. -/
def HasRun (σ : Stage) (s : List Char) : Prop := ∃ n, Runs σ s n (σ.read s)

theorem length_lt_of_read {φ : Phrase} (h : (Stage.phrase φ).read s = .ok (x, t)) :
    t.length < s.length := by
  cases φ with
  | chain op =>
    obtain ⟨hlt, -⟩ := plain_eq_ok_iff.1 h
    exact hlt
  | primary =>
    obtain ⟨hlt, -⟩ := plain_eq_ok_iff.1 h
    exact hlt

/-- A turn goes on in a text that is shorter by the connective. -/
theorem length_lt_of_take {t : Shorter (skipSpace s)}
    (_ : takeConnective? op (skipSpace s) = some t) : t.1.length < s.length :=
  t.2.trans_le (length_skipSpace_le s)

/-- A group goes on in a text that is shorter by its parenthesis. -/
theorem length_lt_of_opening (h : skipSpace s = '(' :: t) : t.length < s.length := by
  have := length_skipSpace_le s
  rw [h, List.length_cons] at this
  omega

theorem hasRun_primary (hinner : ∀ t, t.length < s.length → HasRun (.phrase (.chain .or)) t) :
    HasRun (.phrase .primary) s := by
  by_cases hopening : ∃ t, skipSpace s = '(' :: t
  · obtain ⟨t, ht⟩ := hopening
    obtain ⟨n, hn⟩ := hinner t (length_lt_of_opening ht)
    rw [HasRun, read_primary_of_opening ht]
    cases hread : (Stage.phrase (.chain .or)).read t with
    | error f => exact ⟨n + 1, .groupStuck ht (hread ▸ hn)⟩
    | ok a => exact ⟨n + 1, .closeGroup ht (hread ▸ hn)⟩
  · have hnot := not_exists.1 hopening
    rw [HasRun, read_primary_of_not hnot]
    exact ⟨0, .comparison hnot⟩

theorem hasRun_more
    (hoperand : ∀ t, t.length < s.length → HasRun (.phrase (.operand op)) t) (x : Selector) :
    HasRun (.more op x) s := by
  induction hn : s.length using Nat.strong_induction_on generalizing s x with
  | _ k ih =>
    cases htake : takeConnective? op (skipSpace s) with
    | none =>
      rw [HasRun, read_more_of_none htake]
      exact ⟨0, .stop x htake⟩
    | some t =>
      have hshorter := length_lt_of_take htake
      obtain ⟨n, hnext⟩ := hoperand t.1 hshorter
      rw [HasRun, read_more_of_some htake]
      cases hread : (Stage.phrase (.operand op)).read t.1 with
      | error f => exact ⟨n + 1, .turnStuck x htake (hread ▸ hnext)⟩
      | ok a =>
        obtain ⟨y, u⟩ := a
        have hu : u.length < s.length := (length_lt_of_read hread).trans hshorter
        obtain ⟨m, hmore⟩ := ih u.length (hn ▸ hu) (fun t ht => hoperand t (ht.trans hu))
          (.logical op x y) rfl
        rw [hread] at hnext
        exact ⟨n + 1 + m, .turn htake hnext hmore⟩

theorem hasRun_chain (hoperand : ∀ t, t.length ≤ s.length → HasRun (.phrase (.operand op)) t) :
    HasRun (.phrase (.chain op)) s := by
  obtain ⟨n, hfirst⟩ := hoperand s (Nat.le_refl _)
  rw [HasRun, read_chain]
  cases hread : (Stage.phrase (.operand op)).read s with
  | error f => exact ⟨n, .chainStuck (hread ▸ hfirst)⟩
  | ok a =>
    obtain ⟨x, t⟩ := a
    have ht : t.length < s.length := length_lt_of_read hread
    obtain ⟨m, hmore⟩ := hasRun_more (fun u hu => hoperand u (hu.trans ht).le) x
    rw [hread] at hfirst
    exact ⟨n + m, .chain hfirst hmore⟩

theorem hasRun_or (s : List Char) : HasRun (.phrase (.chain .or)) s := by
  induction hn : s.length using Nat.strong_induction_on generalizing s with
  | _ k ih =>
    refine hasRun_chain fun t ht => hasRun_chain fun u hu => hasRun_primary fun v hv => ?_
    exact ih v.length (by omega) v rfl

/-- Every text has a run. -/
theorem hasRun_text (s : List Char) : HasRun .text s := by
  by_cases h : skipSpace s = []
  · rw [HasRun, read_text_of_nil h]
    exact ⟨0, .blank h⟩
  · obtain ⟨n, hall⟩ := hasRun_or (skipSpace s)
    rw [HasRun, read_text_of_ne_nil h]
    cases hread : (Stage.phrase (.chain .or)).read (skipSpace s) with
    | error f => exact ⟨n, .textStuck h (hread ▸ hall)⟩
    | ok a => exact ⟨n, .endText h (hread ▸ hall)⟩

end SearchFilter.Selector
