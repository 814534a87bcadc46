import SearchFilter.Proofs.Selector.Token

/-!
# Reading selectors by their grammar

A text is read as a selector just when the grammar derives it. What is read has a derivation, by
induction along the reading; and a derivation is found, since at the end of every phrase the next
token tells whether the phrase goes on.

Main statement: `Selector.read_eq_ok_iff_spelled`.
-/

namespace SearchFilter.Selector

variable {s rest : List Char} {x left : Selector} {op : Connective}

/-! ## The steps of reading -/

theorem readComparison_gives_iff :
    Gives (readComparison s) x rest ↔ ∃ property s₁ op s₂ value,
      Gives (readProperty s) property s₁ ∧ Gives (readComparator (skipSpace s₁)) op s₂ ∧
      Gives (readText (skipSpace s₂)) value rest ∧ x = .comparison property op value := by
  constructor
  · intro h
    unfold readComparison at h
    split at h
    · exact absurd h not_gives_error
    · next property s₁ h₁ hproperty =>
      split at h
      · exact absurd h not_gives_error
      · next op s₂ h₂ hop =>
        split at h
        · exact absurd h not_gives_error
        · next value s₃ h₃ hvalue =>
          obtain ⟨rfl, rfl⟩ := gives_ok.1 h
          exact ⟨property, s₁, op, s₂, value, ⟨h₁, hproperty⟩, ⟨h₂, hop⟩, ⟨h₃, hvalue⟩, rfl⟩
  · rintro ⟨property, s₁, op, s₂, value, ⟨h₁, hproperty⟩, ⟨h₂, hop⟩, ⟨h₃, hvalue⟩, rfl⟩
    unfold readComparison
    simp only [hproperty, hop, hvalue]
    exact gives_ok.2 ⟨rfl, rfl⟩

theorem readPrimary_gives_iff :
    Gives (readPrimary s) x rest ↔
      (∃ s₁ inner s₂, skipSpace s = '(' :: s₁ ∧ Gives (readChain .or s₁) inner s₂ ∧
        skipSpace s₂ = ')' :: rest ∧ x = .group inner) ∨
      ((∀ s₁, skipSpace s ≠ '(' :: s₁) ∧ Gives (readComparison (skipSpace s)) x rest) := by
  constructor
  · intro h
    rw [readPrimary] at h
    split at h
    · next s₁ hs =>
      split at h
      · exact absurd h not_gives_error
      · next inner s₂ h₂ hinner =>
        split at h
        · next s₃ hs₃ =>
          obtain ⟨rfl, rfl⟩ := gives_ok.1 h
          exact .inl ⟨s₁, inner, s₂, hs, ⟨h₂, hinner⟩, hs₃, rfl⟩
        · exact absurd h not_gives_error
    · next hs =>
      refine .inr ⟨hs, ?_⟩
      split at h
      · exact absurd h not_gives_error
      · next c r hr hc =>
        obtain ⟨rfl, rfl⟩ := gives_ok.1 h
        exact ⟨hr, hc⟩
  · rintro (⟨s₁, inner, s₂, hs, ⟨h₂, hinner⟩, hs₂, rfl⟩ | ⟨hs, hr, hc⟩)
    · rw [readPrimary]
      split
      · next s₁' hs' =>
        cases hs.symm.trans hs'
        simp only [hinner]
        split
        · next s₃ hs₃ =>
          cases hs₂.symm.trans hs₃
          exact gives_ok.2 ⟨rfl, rfl⟩
        · next hs₃ => exact absurd hs₂ (hs₃ _)
      · next hs' => exact absurd hs (hs' _)
    · rw [readPrimary]
      split
      · next s₁ hs' => exact absurd hs' (hs s₁)
      · simp only [hc]
        exact gives_ok.2 ⟨rfl, rfl⟩

theorem readOperand_or : readOperand .or s = readChain .and s := by rw [readOperand]

theorem readOperand_and : readOperand .and s = readPrimary s := by rw [readOperand]

theorem readMore_gives_iff :
    Gives (readMore op left s) x rest ↔
      (takeConnective? op (skipSpace s) = none ∧ x = left ∧ rest = skipSpace s) ∨
      ∃ k s₁ right s₂, op.Spells k s₁ ∧ skipSpace s = k ++ s₁ ∧
        Gives (readOperand op s₁) right s₂ ∧
        Gives (readMore op (.logical op left right) s₂) x rest := by
  constructor
  · intro h
    rw [readMore] at h
    split at h
    · next hnone =>
      obtain ⟨rfl, rfl⟩ := gives_ok.1 h
      exact .inl ⟨hnone, rfl, rfl⟩
    · next s₁ h₁ htake =>
      split at h
      · exact absurd h not_gives_error
      · next right s₂ h₂ hright =>
        split at h
        · exact absurd h not_gives_error
        · next all s₃ h₃ hmore =>
          obtain ⟨rfl, rfl⟩ := gives_ok.1 h
          have htaken := congrArg (Option.map Subtype.val) htake
          obtain ⟨k, hk, hs⟩ := takeConnective?_eq_some_iff.1 htaken
          exact .inr ⟨k, s₁, right, s₂, hk, hs, ⟨h₂, hright⟩, ⟨h₃, hmore⟩⟩
  · rintro (⟨hnone, rfl, rfl⟩ | ⟨k, s₁, right, s₂, hk, hs, ⟨h₂, hright⟩, ⟨h₃, hmore⟩⟩)
    · rw [readMore]
      simp only [hnone]
      exact gives_ok.2 ⟨rfl, rfl⟩
    · have htaken := takeConnective?_eq_some_iff.2 ⟨k, hk, hs⟩
      obtain ⟨⟨_, h₁⟩, htake, rfl⟩ := Option.map_eq_some_iff.1 htaken
      rw [readMore]
      simp only [htake, hright, hmore]
      exact gives_ok.2 ⟨rfl, rfl⟩

theorem readChain_gives_iff :
    Gives (readChain op s) x rest ↔
      ∃ left s₁, Gives (readOperand op s) left s₁ ∧ Gives (readMore op left s₁) x rest := by
  constructor
  · intro h
    rw [readChain] at h
    split at h
    · exact absurd h not_gives_error
    · next left s₁ h₁ hleft =>
      split at h
      · exact absurd h not_gives_error
      · next all s₂ h₂ hmore =>
        obtain ⟨rfl, rfl⟩ := gives_ok.1 h
        exact ⟨left, s₁, ⟨h₁, hleft⟩, ⟨h₂, hmore⟩⟩
  · rintro ⟨left, s₁, ⟨h₁, hleft⟩, ⟨h₂, hmore⟩⟩
    rw [readChain]
    simp only [hleft, hmore]
    exact gives_ok.2 ⟨rfl, rfl⟩

/-! ## What is read has a derivation -/

theorem derives_of_readComparison (h : Gives (readComparison s) x rest) :
    ∃ u, s = u ++ rest ∧ ∀ w, Spaces w → Derives .primary (w ++ u) x := by
  obtain ⟨property, s₁, op, s₂, text, hproperty, hop, htext, rfl⟩ := readComparison_gives_iff.1 h
  obtain ⟨name, hname, rfl, rfl, hmaximal⟩ := readProperty_gives_iff.1 hproperty
  obtain ⟨w', hs₁, hw'⟩ := exists_eq_append_skipSpace s₁
  obtain ⟨w'', hs₂, hw''⟩ := exists_eq_append_skipSpace s₂
  obtain ⟨quote, source, value, hquote, hskip, hsource, rfl⟩ := readText_gives_iff.1 htext
  rw [readComparator_gives_iff.1 hop] at hs₁
  rw [hskip] at hs₂
  subst hs₂ hs₁
  have hnext : w' ++ op.token.toList ≠ [] :=
    List.append_ne_nil_of_right_ne_nil _ (token_ne_nil op)
  rw [← List.append_assoc, List.head?_append_of_ne_nil _ hnext] at hmaximal
  refine ⟨name ++ w' ++ op.token.toList ++ w'' ++ quote :: source ++ [quote], by simp, ?_⟩
  intro w hw
  have hderives := Derives.comparison hw hname hw' hmaximal hw'' hquote hsource
  simpa using hderives

/-- A text begins with a phrase and white space, and `rest` is what follows. -/
def Begins (φ : Phrase) (s : List Char) (x : Selector) (rest : List Char) : Prop :=
  ∃ u w, s = u ++ w ++ rest ∧ Derives φ u x ∧ Spaces w

/-- What is read of a text as an operand of a connective has a derivation. -/
def SoundOperand (op : Connective) (s : List Char) : Prop :=
  ∀ x rest, Gives (readOperand op s) x rest → Begins (.operand op) s x rest

/-- What is read of a text as a chain of a connective has a derivation. -/
def SoundChain (op : Connective) (s : List Char) : Prop :=
  ∀ x rest, Gives (readChain op s) x rest → Begins (.chain op) s x rest

theorem soundOperand_and (hchain : ∀ t, t.length < s.length → SoundChain .or t) :
    SoundOperand .and s := by
  intro x rest h
  rw [readOperand_and] at h
  obtain ⟨w, hs, hw⟩ := exists_eq_append_skipSpace s
  rcases readPrimary_gives_iff.1 h with ⟨s₁, inner, s₂, hs₁, hinner, hs₂, rfl⟩ | ⟨-, hcomparison⟩
  · rw [hs₁] at hs
    have hshorter : s₁.length < s.length := by
      rw [hs, List.length_append, List.length_cons]
      omega
    obtain ⟨u, v, rfl, hu, hv⟩ := hchain s₁ hshorter inner s₂ hinner
    obtain ⟨v', hs₂', hv'⟩ := exists_eq_append_skipSpace s₂
    rw [hs, hs₂', hs₂]
    exact ⟨w ++ '(' :: u ++ (v ++ v') ++ [')'], [], by simp, .group hw hu (hv.append hv'), .nil⟩
  · obtain ⟨u, hu, hderives⟩ := derives_of_readComparison hcomparison
    rw [hs, hu]
    exact ⟨w ++ u, [], by simp, hderives w hw, .nil⟩

theorem soundOperand_or (hchain : SoundChain .and s) : SoundOperand .or s := by
  intro x rest h
  rw [readOperand_or] at h
  exact hchain x rest h

/-- The operands that are read after a chain extend its derivation. -/
theorem begins_of_readMore {u w : List Char}
    (hoperand : ∀ t, t.length < s.length → SoundOperand op t)
    (h : Gives (readMore op left s) x rest) (hu : Derives (.chain op) u left) (hw : Spaces w) :
    Begins (.chain op) (u ++ w ++ s) x rest := by
  induction hn : s.length using Nat.strong_induction_on generalizing s u w left with
  | _ n ih =>
    obtain ⟨v, hs, hv⟩ := exists_eq_append_skipSpace s
    rcases readMore_gives_iff.1 h with ⟨-, rfl, rfl⟩ | ⟨k, s₁, right, s₂, hk, hs₁, hright, hmore⟩
    · exact ⟨u, w ++ v, by simp [← hs], hu, hw.append hv⟩
    · rw [hs₁] at hs
      have hshorter : s₁.length < s.length := by
        have hk₀ := List.length_pos_iff.2 hk.ne_nil
        rw [hs, List.length_append, List.length_append]
        omega
      obtain ⟨t, w₁, rfl, ht, hw₁⟩ := hoperand s₁ hshorter right s₂ hright
      have hrest : s₂.length < s.length := by
        rw [List.length_append] at hshorter
        omega
      rw [List.append_assoc] at hk
      have hlonger : Derives (.chain op) (u ++ (w ++ v) ++ k ++ t) (.logical op left right) :=
        .join hu (hw.append hv) ((Connective.Spells.append_iff ht.ne_nil).1 hk) ht
      have hbegins := ih s₂.length (hn ▸ hrest) (fun t ht => hoperand t (ht.trans hrest)) hmore
        hlonger hw₁ rfl
      rw [hs]
      simpa using hbegins

theorem soundChain (hoperand : ∀ t, t.length ≤ s.length → SoundOperand op t) :
    SoundChain op s := by
  intro x rest h
  obtain ⟨left, s₁, hleft, hmore⟩ := readChain_gives_iff.1 h
  obtain ⟨u, w, rfl, hu, hw⟩ := hoperand s (Nat.le_refl _) left s₁ hleft
  refine begins_of_readMore (fun t ht => hoperand t ?_) hmore (.single hu) hw
  simp only [List.length_append]
  omega

theorem soundChain_or (s : List Char) : SoundChain .or s := by
  induction hn : s.length using Nat.strong_induction_on generalizing s with
  | _ n ih =>
    have hand : ∀ t, t.length ≤ s.length → SoundChain .and t := fun t ht =>
      soundChain fun t' ht' => soundOperand_and fun t'' ht'' => ih t''.length (by omega) t'' rfl
    exact soundChain fun t ht => soundOperand_or (hand t ht)

/-! ## What has a derivation is read -/

/-- A chain of `op` goes no further than to a text. -/
def Stops (op : Connective) (s : List Char) : Prop := takeConnective? op (skipSpace s) = none

/-- How a phrase is read, whatever follows it. A chain is read on as far as it goes, and so a chain
of `or` needs to know that no chain of `and` goes on instead. -/
def Phrase.Found : Phrase → List Char → Selector → Prop
  | chain op, s, x => ∀ rest y r, (op = .or → Stops .and rest) →
      Gives (readMore op x rest) y r → Gives (readChain op (s ++ rest)) y r
  | primary, s, x => ∀ rest, Gives (readPrimary (s ++ rest)) x rest

theorem readMore_congr {t : List Char} {y : Selector} (h : skipSpace s = skipSpace t) :
    Gives (readMore op left s) y rest ↔ Gives (readMore op left t) y rest := by
  rw [readMore_gives_iff, readMore_gives_iff, h]

theorem exists_of_found (h : (Phrase.operand op).Found s x) (hstops : op = .or → Stops .and rest) :
    ∃ r, Gives (readOperand op (s ++ rest)) x r ∧ skipSpace r = skipSpace rest := by
  cases op with
  | and =>
    rw [readOperand_and]
    exact ⟨rest, h rest, rfl⟩
  | or =>
    rw [readOperand_or]
    refine ⟨skipSpace rest, h rest x _ nofun ?_, skipSpace_skipSpace rest⟩
    exact readMore_gives_iff.2 (.inl ⟨hstops rfl, rfl, rfl⟩)

/-- The tokens of a comparison are read one after the other. -/
theorem readComparison_gives {name w' w'' source value : List Char} {op : Comparator} {quote : Char}
    (hname : IsPropertyName name) (hw' : Spaces w')
    (hmaximal : ∀ c ∈ (w' ++ op.token.toList).head?, ¬ IsNameChar c) (hw'' : Spaces w'')
    (hquote : quote ∈ ['"', '\'']) (h : Quotes quote source value) (rest : List Char) :
    Gives (readComparison (name ++ (w' ++ (op.token.toList ++ (w'' ++
        (quote :: source ++ quote :: rest))))))
      (.comparison (String.ofList name) op (String.ofList value)) rest := by
  have hproperty : Gives (readProperty (name ++ (w' ++ (op.token.toList ++ (w'' ++
      (quote :: source ++ quote :: rest)))))) (String.ofList name) (w' ++ (op.token.toList ++
        (w'' ++ (quote :: source ++ quote :: rest)))) := by
    refine readProperty_gives_iff.2 ⟨name, hname, rfl, rfl, ?_⟩
    rw [← List.append_assoc, List.head?_append_of_ne_nil]
    · exact hmaximal
    · exact List.append_ne_nil_of_right_ne_nil _ (token_ne_nil op)
  have hop : Gives (readComparator (skipSpace (w' ++ (op.token.toList ++ (w'' ++
      (quote :: source ++ quote :: rest)))))) op (w'' ++ (quote :: source ++ quote :: rest)) := by
    rw [skipSpace_append hw', skipSpace_token]
    exact readComparator_gives_iff.2 rfl
  have htext : Gives (readText (skipSpace (w'' ++ (quote :: source ++ quote :: rest))))
      (String.ofList value) rest := by
    rw [skipSpace_append hw'', List.cons_append, skipSpace_of_not (isSpace_quote hquote)]
    exact readText_gives_iff.2 ⟨quote, source, value, hquote, rfl, h, rfl⟩
  exact readComparison_gives_iff.2 ⟨_, _, op, _, _, hproperty, hop, htext, rfl⟩

theorem readPrimary_gives_group {w w' : List Char} (hw : Spaces w) (hw' : Spaces w')
    (h : (Phrase.chain .or).Found s x) (rest : List Char) :
    Gives (readPrimary (w ++ '(' :: s ++ w' ++ [')'] ++ rest)) (.group x) rest := by
  have hopening : skipSpace (w ++ '(' :: s ++ w' ++ [')'] ++ rest) =
      '(' :: (s ++ (w' ++ ')' :: rest)) := by
    simp only [List.append_assoc, List.cons_append, List.nil_append]
    rw [skipSpace_append hw, skipSpace_of_not (by decide)]
  have hclosing : skipSpace (w' ++ ')' :: rest) = ')' :: rest := by
    rw [skipSpace_append hw', skipSpace_of_not (by decide)]
  have hstops : ∀ op, Stops op (w' ++ ')' :: rest) := by
    intro op
    rw [Stops, hclosing]
    exact takeConnective?_eq_none (by cases op <;> simp [initials])
  have hinner : Gives (readChain .or (s ++ (w' ++ ')' :: rest))) x (')' :: rest) :=
    h _ x _ (fun _ => hstops .and) (readMore_gives_iff.2 (.inl ⟨hstops .or, rfl, hclosing.symm⟩))
  exact readPrimary_gives_iff.2 (.inl ⟨_, x, _, hopening, hinner,
    skipSpace_of_not (by decide) _, rfl⟩)

theorem readPrimary_gives_comparison {w name t : List Char} (hw : Spaces w)
    (hname : IsPropertyName name) (h : Gives (readComparison (name ++ t)) x rest) :
    Gives (readPrimary (w ++ (name ++ t))) x rest := by
  obtain ⟨c, name, rfl⟩ := List.exists_cons_of_ne_nil hname.ne_nil
  have hc : IsNameChar c := hname.isNameChar c List.mem_cons_self
  have hbody : skipSpace (w ++ (c :: name ++ t)) = c :: name ++ t := by
    rw [skipSpace_append hw, List.cons_append, skipSpace_of_not hc.isSpace_eq_false]
  refine readPrimary_gives_iff.2 (.inr ⟨?_, ?_⟩)
  · intro s₁ hs
    rw [hbody, List.cons_append, List.cons.injEq] at hs
    exact hc.ne_opening hs.1
  · rw [hbody]
    exact h

theorem found_of_derives {φ : Phrase} (h : Derives φ s x) : φ.Found s x := by
  induction h with
  | single _ ih =>
    intro rest y r hstops hmore
    obtain ⟨rest', hread, hskip⟩ := exists_of_found ih hstops
    exact readChain_gives_iff.2 ⟨_, rest', hread, (readMore_congr hskip).2 hmore⟩
  | @join op s w k t x y hleft hw hk hright ihl ihr =>
    intro rest z r hstops hmore
    obtain ⟨rest', hread, hskip⟩ := exists_of_found ihr hstops
    have hk' : op.Spells k (t ++ rest) := (Connective.Spells.append_iff hright.ne_nil).2 hk
    have hnext : skipSpace (w ++ (k ++ (t ++ rest))) = k ++ (t ++ rest) := by
      rw [skipSpace_append hw, skipSpace_of_spells hk']
    have hmore' : Gives (readMore op x (w ++ (k ++ (t ++ rest)))) z r :=
      readMore_gives_iff.2 (.inr ⟨k, t ++ rest, y, rest', hk', hnext, hread,
        (readMore_congr hskip).2 hmore⟩)
    have hassoc : s ++ w ++ k ++ t ++ rest = s ++ (w ++ (k ++ (t ++ rest))) := by simp
    rw [hassoc]
    refine ihl _ z r ?_ hmore'
    rintro rfl
    rw [Stops, hnext]
    exact takeConnective?_and_of_spells hk'
  | group hw _ hw' ih => exact fun rest => readPrimary_gives_group hw hw' ih rest
  | @comparison w name w' w'' source value op quote hw hname hw' hmaximal hw'' hquote h =>
    intro rest
    have hassoc : w ++ name ++ w' ++ op.token.toList ++ w'' ++ quote :: source ++ [quote] ++ rest =
        w ++ (name ++
          (w' ++ (op.token.toList ++ (w'' ++ (quote :: source ++ quote :: rest))))) := by
      simp
    rw [hassoc]
    exact readPrimary_gives_comparison hw hname
      (readComparison_gives hname hw' hmaximal hw'' hquote h rest)

/-! ## Texts -/

theorem readPrimary_skipSpace :
    Gives (readPrimary (skipSpace s)) x rest ↔ Gives (readPrimary s) x rest := by
  rw [readPrimary_gives_iff, readPrimary_gives_iff, skipSpace_skipSpace]

theorem readChain_skipSpace (op : Connective) :
    Gives (readChain op (skipSpace s)) x rest ↔ Gives (readChain op s) x rest := by
  have hand : ∀ {x rest}, Gives (readChain .and (skipSpace s)) x rest ↔
      Gives (readChain .and s) x rest := by
    intro x rest
    simp only [readChain_gives_iff, readOperand_and, readPrimary_skipSpace]
  cases op with
  | and => exact hand
  | or =>
    rw [readChain_gives_iff, readChain_gives_iff]
    simp only [readOperand_or, hand]

theorem readAll_eq_ok_iff :
    readAll s = .ok x ↔ ∃ rest, Gives (readChain .or s) x rest ∧ Spaces rest := by
  simp only [← readChain_skipSpace .or (s := s)]
  unfold readAll
  split
  · next hs =>
    rw [hs]
    constructor
    · intro h
      cases h
    · rintro ⟨rest, ⟨h, -⟩, -⟩
      exact absurd h (Nat.not_lt_zero _)
  · next c t hs =>
    rw [hs]
    split
    · next f hread =>
      constructor
      · intro h
        cases h
      · rintro ⟨rest, ⟨h, heq⟩, -⟩
        rw [hread] at heq
        cases heq
    · next selector r hr hread =>
      simp only [hread, gives_ok]
      split
      · next hspaces =>
        constructor
        · intro h
          cases h
          exact ⟨r, ⟨rfl, rfl⟩, skipSpace_eq_nil_iff.1 hspaces⟩
        · rintro ⟨rest, ⟨rfl, rfl⟩, -⟩
          rfl
      · next hleft =>
        constructor
        · intro h
          cases h
        · rintro ⟨rest, ⟨rfl, rfl⟩, hspaces⟩
          exact absurd (skipSpace_eq_nil_iff.2 hspaces) hleft

/-- A text is read as a selector just when it spells the selector. -/
theorem readAll_eq_ok_iff_spelled : readAll s = .ok x ↔ Spelled s x := by
  rw [readAll_eq_ok_iff]
  constructor
  · rintro ⟨rest, h, hrest⟩
    obtain ⟨u, w, rfl, hu, hw⟩ := soundChain_or s x rest h
    exact ⟨u, w ++ rest, List.append_assoc _ _ _, hu, hw.append hrest⟩
  · rintro ⟨u, w, rfl, hu, hw⟩
    have hw' : skipSpace w = [] := skipSpace_eq_nil_iff.2 hw
    have hstops : ∀ op, Stops op w := by
      intro op
      rw [Stops, hw']
      exact takeConnective?_eq_none nofun
    refine ⟨[], ?_, .nil⟩
    exact found_of_derives hu w x [] (fun _ => hstops .and)
      (readMore_gives_iff.2 (.inl ⟨hstops .or, rfl, hw'.symm⟩))

theorem read_eq_ok_iff {text : String} : read text = .ok x ↔ readAll text.toList = .ok x := by
  unfold read
  cases readAll text.toList with
  | error f => exact ⟨nofun, nofun⟩
  | ok y =>
    constructor
    · intro h
      cases h
      rfl
    · intro h
      cases h
      rfl

/-! ## Texts of one comparison -/

theorem readMore_nil (op : Connective) (left : Selector) : Gives (readMore op left []) left [] :=
  readMore_gives_iff.2 (.inl ⟨takeConnective?_eq_none nofun, rfl, rfl⟩)

/-- A text that is one comparison is read as it. -/
theorem read_of_readComparison {text : String} {c : Char} {t : List Char}
    (htext : text.toList = c :: t) (hc : isSpace c = false) (ho : c ≠ '(')
    (h : (readComparison (c :: t)).toOption = some (x, ⟨[], Nat.zero_lt_succ _⟩)) :
    read text = .ok x := by
  have hcomparison : Gives (readComparison (c :: t)) x [] := by
    refine ⟨Nat.zero_lt_succ _, ?_⟩
    cases hr : readComparison (c :: t) with
    | error f =>
      rw [hr] at h
      cases h
    | ok found =>
      rw [hr] at h
      cases h
      rfl
  have hprimary : Gives (readPrimary (c :: t)) x [] := by
    rw [readPrimary_gives_iff, skipSpace_of_not hc]
    exact .inr ⟨fun s₁ hs => ho (List.cons.inj hs).1, hcomparison⟩
  have hand : Gives (readChain .and (c :: t)) x [] :=
    readChain_gives_iff.2 ⟨x, [], by rwa [readOperand_and], readMore_nil _ x⟩
  have hor : Gives (readChain .or (c :: t)) x [] :=
    readChain_gives_iff.2 ⟨x, [], by rwa [readOperand_or], readMore_nil _ x⟩
  rw [read_eq_ok_iff, htext, readAll_eq_ok_iff]
  exact ⟨[], hor, .nil⟩

example : read "format == \"\"" = .ok (.comparison "format" .equal "") :=
  read_of_readComparison (by rfl) (by decide) (by decide) (by decide +kernel)

/-! ## Texts -/

/-- A text is read as a selector just when it spells the selector. -/
theorem read_eq_ok_iff_spelled (text : String) (x : Selector) :
    read text = .ok x ↔ Spelled text.toList x := by
  rw [read_eq_ok_iff, readAll_eq_ok_iff_spelled]

end SearchFilter.Selector
