import SearchFilter.Proofs.Selector.Run

/-!
# Where errors are told

An error is told where the text before it can still be completed to a selector. This is followed
through the runs of the reader: a failure in a phrase leaves a beginning of the phrase behind it,
and a failure in the operands after a chain leaves a beginning of a longer chain. What may follow
such a beginning need not be what does follow it; only where a connective has just been written as a
word has the completion to begin with a space, for the word to end there.

As what is left of a text is always an end of it, positions lie between characters, and a run has no
more turns and groups than characters that it takes.

Main statement: `Selector.position_of_read_error`.
-/

namespace SearchFilter

/-- After a connective a space may come next, whatever came next before. -/
theorem Connective.Spells.of_space {op : Connective} {k s t : List Char} (h : op.Spells k s)
    (ht : t.head? = some ' ') : op.Spells k t := by
  cases h with
  | sign => exact .sign t
  | word hk =>
    refine .word hk fun c hc => ?_
    obtain rfl : ' ' = c := by simpa [ht] using hc
    exact ⟨isAlphanumeric_of_isSpace (by decide), by decide⟩

namespace Selector

variable {φ : Phrase} {op : Connective} {s t u v w rest : List Char} {x left : Selector}
  {f : Failure} {σ : Stage} {r : Reading} {n : Nat}

/-! ## Where a token is not read -/

theorem rest_of_readProperty (h : readProperty s = .error f) : f.rest = s := by
  unfold readProperty at h
  split at h
  · cases h
    rfl
  · split at h
    · dsimp only at h
      split at h
      · cases h
      · cases h
        rfl
    · cases h
      rfl

theorem rest_of_readComparator (h : readComparator s = .error f) : f.rest = s := by
  unfold readComparator at h
  split at h
  · split at h
    · cases h
    · cases h
      rfl
  · cases h
    rfl

/-- A text that lacks its closing quote could have one. -/
theorem quotes_of_readQuoted {quote : Char} (h : readQuoted quote s = .error f) :
    f.rest = [] ∧ ∃ v value, Quotes quote (s ++ v) value := by
  fun_induction readQuoted quote s with
  | case1 =>
    cases h
    exact ⟨rfl, [], [], .nil⟩
  | case2 => cases h
  | case3 hquote =>
    cases h
    exact ⟨rfl, ['n'], ['\n'], .escape .newline .nil⟩
  | case4 => cases h
  | case5 e t g hread hquote ih =>
    cases h
    obtain ⟨hrest, v, value, hsource⟩ := ih hread
    exact ⟨hrest, v, _, .escape (escapes_iff.2 rfl) hsource⟩
  | case6 => cases h
  | case7 c t hquote hc g hread ih =>
    cases h
    obtain ⟨hrest, v, value, hsource⟩ := ih hread
    exact ⟨hrest, v, _, .plain hquote hc hsource⟩

theorem quotes_of_readText (h : readText s = .error f) :
    f.rest = s ∨ f.rest = [] ∧ ∃ quote source v value, quote ∈ ['"', '\''] ∧ s = quote :: source ∧
      Quotes quote (source ++ v) value := by
  unfold readText at h
  split at h
  · cases h
    exact .inl rfl
  · next c t =>
    split at h
    · next hquote =>
      split at h
      · cases h
      · next g hread =>
        cases h
        obtain ⟨hrest, v, value, hsource⟩ := quotes_of_readQuoted hread
        exact .inr ⟨hrest, c, t, v, value, List.mem_pair.2 hquote, rfl, hsource⟩
    · cases h
      exact .inl rfl

/-! ## Beginnings of phrases -/

/-- A text can be completed to a phrase, by a space at first where there is nothing of it yet. -/
def Phrase.Viable (φ : Phrase) (u : List Char) : Prop :=
  ∃ v x, Derives φ (u ++ v) x ∧ (u = [] → v.head? = some ' ')

/-- A text that is not empty can be completed in any way. -/
theorem Phrase.Viable.of_derives (h : Derives φ s x) (hs : s = u ++ v) (hu : u ≠ []) :
    φ.Viable u :=
  ⟨v, x, hs ▸ h, fun hnil => absurd hnil hu⟩

theorem head?_token (op : Comparator) :
    op.token.toList.head? = some '=' ∨ op.token.toList.head? = some '!' := by
  cases op with
  | notEqual => exact .inr rfl
  | equal | startsWith | matching => exact .inl rfl

theorem Phrase.Viable.of_append (h : φ.Viable (u ++ v)) (hu : u ≠ []) : φ.Viable u := by
  obtain ⟨v', x, hx, -⟩ := h
  exact .of_derives hx (List.append_assoc u v v') hu

/-- No white space and no comparator goes on with a name. -/
theorem not_isNameChar_head (hw : Spaces w) (op : Comparator) :
    ∀ c ∈ (w ++ op.token.toList).head?, ¬ IsNameChar c := by
  intro c hc hname
  cases w with
  | nil =>
    rw [List.nil_append] at hc
    rcases head?_token op with hhead | hhead
    · obtain rfl : '=' = c := by simpa [hhead] using hc
      exact absurd (isPropertyChar_iff.2 hname) (by decide +kernel)
    · obtain rfl : '!' = c := by simpa [hhead] using hc
      exact absurd (isPropertyChar_iff.2 hname) (by decide +kernel)
  | cons d w =>
    obtain rfl : d = c := by simpa using hc
    have hspace := hname.isSpace_eq_false
    rw [hw d List.mem_cons_self] at hspace
    cases hspace

theorem derives_blank (hw : Spaces w) :
    ∃ x, Derives .primary (w ++ ['a', '=', '=', '\'', '\'']) x := by
  have hname : IsPropertyName ['a'] := by
    refine ⟨by simp, fun c hc => isPropertyChar_iff.1 ?_, by simp, by simp, by decide⟩
    obtain rfl : c = 'a' := by simpa using hc
    decide +kernel
  have htoken : Comparator.equal.token.toList = ['=', '='] := rfl
  have hmaximal := not_isNameChar_head .nil .equal
  have hderives := Derives.comparison hw hname .nil hmaximal .nil
    (show '\'' ∈ ['"', '\''] by simp) .nil
  exact ⟨_, by simpa [htoken] using hderives⟩

/-- White space can be completed to a comparison. -/
theorem viable_of_spaces (hw : Spaces w) : Phrase.primary.Viable w := by
  have hspace : Spaces [' '] := by
    intro c hc
    obtain rfl : c = ' ' := by simpa using hc
    decide
  obtain ⟨x, hx⟩ := derives_blank (hw.append hspace)
  exact ⟨_, x, by simpa using hx, fun _ => rfl⟩

section
variable {name w' w'' source value : List Char} {quote : Char} (hw : Spaces w)
  (hname : IsPropertyName name) (hw' : Spaces w')
include hw hname hw'

theorem viable_quoted (op : Comparator) (hw'' : Spaces w'') (hquote : quote ∈ ['"', '\''])
    (h : Quotes quote (source ++ v) value) :
    Phrase.primary.Viable
      (w ++ (name ++ (w' ++ (op.token.toList ++ (w'' ++ quote :: source))))) :=
  .of_derives (.comparison hw hname hw' (not_isNameChar_head hw' op) hw'' hquote h)
    (v := v ++ [quote]) (by simp) (by simp [hname.ne_nil])

theorem viable_comparator (op : Comparator) (hw'' : Spaces w'') :
    Phrase.primary.Viable (w ++ (name ++ (w' ++ (op.token.toList ++ w'')))) := by
  have hquote : '"' ∈ ['"', '\''] := List.mem_cons_self
  have hempty : Quotes '"' ([] ++ []) [] := .nil
  have hquoted := viable_quoted hw hname hw' op hw'' hquote hempty
  exact .of_append (v := ['"']) (by simpa using hquoted) (by simp [hname.ne_nil])

theorem viable_name : Phrase.primary.Viable (w ++ (name ++ w')) := by
  have hcomparator := viable_comparator hw hname hw' .equal .nil
  exact .of_append (v := Comparator.equal.token.toList) (by simpa using hcomparator)
    (by simp [hname.ne_nil])

end

/-- What stands before a comparison that is not read can be completed to one. -/
theorem viable_of_readComparison (h : readComparison s = .error f) :
    ∃ u, s = u ++ f.rest ∧ ∀ w, Spaces w → Phrase.primary.Viable (w ++ u) := by
  unfold readComparison at h
  split at h
  · next g hproperty =>
    cases h
    refine ⟨[], (rest_of_readProperty hproperty).symm, fun w hw => ?_⟩
    simpa using viable_of_spaces hw
  · next property s₁ h₁ hproperty =>
    obtain ⟨name, hname, -, rfl, -⟩ := readProperty_gives_iff.1 ⟨h₁, hproperty⟩
    obtain ⟨w', hs₁, hw'⟩ := exists_eq_append_skipSpace s₁
    split at h
    · next g hop =>
      cases h
      rw [rest_of_readComparator hop]
      exact ⟨name ++ w', by rw [List.append_assoc, ← hs₁], fun w hw => viable_name hw hname hw'⟩
    · next op s₂ h₂ hop =>
      obtain ⟨w'', hs₂, hw''⟩ := exists_eq_append_skipSpace s₂
      rw [readComparator_gives_iff.1 ⟨h₂, hop⟩] at hs₁
      split at h
      · next g htext =>
        cases h
        rcases quotes_of_readText htext with hrest | ⟨hrest, quote, source, v, value, hquote, hskip,
          hsource⟩
        · rw [hrest]
          refine ⟨name ++ (w' ++ (op.token.toList ++ w'')), ?_, fun w hw =>
            viable_comparator hw hname hw' op hw''⟩
          rw [hs₁]
          conv_lhs => rw [hs₂]
          simp
        · rw [hrest, hs₁, hs₂, hskip]
          exact ⟨_, (List.append_nil _).symm, fun w hw =>
            viable_quoted hw hname hw' op hw'' hquote hsource⟩
      · cases h

/-! ## Runs -/

/-- What is read as a phrase has a derivation. -/
theorem begins_of_read (h : (Stage.phrase φ).read s = .ok (x, rest)) : Begins φ s x rest := by
  cases φ with
  | chain op =>
    have hread : Gives (readChain op s) x rest := plain_eq_ok_iff.1 h
    cases op with
    | and =>
      have hchain : SoundChain .and s :=
        soundChain fun t _ => soundOperand_and fun u _ => soundChain_or u
      exact hchain x rest hread
    | or => exact soundChain_or s x rest hread
  | primary =>
    have hread : Gives (readPrimary s) x rest := plain_eq_ok_iff.1 h
    rw [← readOperand_and] at hread
    exact soundOperand_and (fun t _ => soundChain_or t) x rest hread

theorem begins_of_runs (h : Runs (.phrase φ) s n (.ok (x, rest))) : Begins φ s x rest :=
  begins_of_read h.read_eq

theorem exists_of_takeConnective {t : Shorter (skipSpace s)}
    (h : takeConnective? op (skipSpace s) = some t) :
    ∃ w k, s = w ++ k ++ t.1 ∧ Spaces w ∧ op.Spells k t.1 := by
  obtain ⟨w, hs, hw⟩ := exists_eq_append_skipSpace s
  obtain ⟨k, hk, hskip⟩ := takeConnective?_eq_some_iff.1 (congrArg (Option.map Subtype.val) h)
  exact ⟨w, k, by rw [List.append_assoc, ← hskip, ← hs], hw, hk⟩

theorem exists_of_opening (h : skipSpace s = '(' :: t) : ∃ w, s = w ++ '(' :: t ∧ Spaces w := by
  obtain ⟨w, hs, hw⟩ := exists_eq_append_skipSpace s
  exact ⟨w, h ▸ hs, hw⟩

/-- What stands before a failure can be completed: to the phrase that was read, to a longer chain
than the one that was read on, or to a selector. -/
def Stage.Explains : Stage → List Char → Failure → Prop
  | phrase φ, s, f => ∃ u, s = u ++ f.rest ∧ φ.Viable u
  | more op left, s, f => ∀ u w, Derives (.chain op) u left → Spaces w →
      ∃ v, s = v ++ f.rest ∧ (Phrase.chain op).Viable (u ++ w ++ v)
  | text, s, f => ∃ u, s = u ++ f.rest ∧ ∃ v x, readAll (u ++ v) = .ok x

theorem Phrase.Viable.single (h : (Phrase.operand op).Viable u) : (Phrase.chain op).Viable u := by
  obtain ⟨v, x, hx, hv⟩ := h
  exact ⟨v, x, .single hx, hv⟩

/-- The beginning of an operand, after a chain and its connective, begins a longer chain. -/
theorem Phrase.Viable.join {k : List Char} (hu : Derives (.chain op) u left) (hw : Spaces w)
    (hk : op.Spells k (v ++ rest)) (hv : (Phrase.operand op).Viable v) :
    (Phrase.chain op).Viable (u ++ w ++ k ++ v) := by
  obtain ⟨v', y, hy, hspace⟩ := hv
  have hk' : op.Spells k (v ++ v') := by
    by_cases hnil : v = []
    · subst hnil
      exact hk.of_space (hspace rfl)
    · exact (Connective.Spells.append_iff hnil).2 ((Connective.Spells.append_iff hnil).1 hk)
  exact .of_derives (.join hu hw hk' hy) (v := v') (by simp) (by simp [hu.ne_nil])

theorem Phrase.Viable.group (hw : Spaces w) (h : (Phrase.chain .or).Viable u) :
    Phrase.primary.Viable (w ++ '(' :: u) := by
  obtain ⟨v, x, hx, -⟩ := h
  exact .of_derives (.group hw hx .nil) (v := v ++ [')']) (by simp) (by simp)

/-- Where the chain of a group has come to its end, the group lacks nothing but its parenthesis. -/
theorem Derives.viable_group {w' : List Char} (hw : Spaces w) (h : Derives (.chain .or) u x)
    (hw' : Spaces w') : Phrase.primary.Viable (w ++ '(' :: (u ++ w')) :=
  .of_derives (.group hw h hw') (v := [')']) (by simp) (by simp)

theorem readAll_append (hw : Spaces w) (s : List Char) : readAll (w ++ s) = readAll s := by
  rw [readAll, readAll, skipSpace_append hw]

/-- The beginning of a chain, with white space before it, can be completed to a selector. -/
theorem exists_readAll_of_viable (hw : Spaces w) (h : (Phrase.chain .or).Viable u) :
    ∃ v x, readAll (w ++ u ++ v) = .ok x := by
  obtain ⟨v, x, hx, -⟩ := h
  refine ⟨v, x, ?_⟩
  rw [List.append_assoc, readAll_append hw, readAll_eq_ok_iff_spelled]
  exact ⟨u ++ v, [], by simp, hx, .nil⟩

/-- What stands before a failure can be completed, by induction on the run: first the phrase that
has failed, and then the phrases around it. -/
theorem Runs.explains (h : Runs σ s n r) : ∀ f, r = .error f → σ.Explains s f := by
  induction h with
  | chainStuck _ ih =>
    rintro f ⟨⟩
    obtain ⟨u, hs, hu⟩ := ih _ rfl
    exact ⟨u, hs, hu.single⟩
  | chain hfirst _ _ ihmore =>
    intro f hf
    obtain ⟨u, w, rfl, hu, hw⟩ := begins_of_runs hfirst
    obtain ⟨v, rfl, hv⟩ := ihmore f hf u w (.single hu) hw
    exact ⟨u ++ w ++ v, by simp, hv⟩
  | stop => exact nofun
  | turnStuck x h _ ih =>
    rintro f ⟨⟩ u w hu hw
    obtain ⟨w', k, hs, hw', hk⟩ := exists_of_takeConnective h
    obtain ⟨v, ht, hv⟩ := ih _ rfl
    rw [ht] at hs hk
    refine ⟨w' ++ k ++ v, by simpa using hs, ?_⟩
    have hviable := hv.join hu (hw.append hw') hk
    simpa using hviable
  | @turn op s u₂ t _ _ x y r h hnext _ _ ihmore =>
    intro f hf u w hu hw
    obtain ⟨w', k, hs, hw', hk⟩ := exists_of_takeConnective h
    obtain ⟨a, w₂, ht, ha, hw₂⟩ := begins_of_runs hnext
    rw [ht, List.append_assoc] at hk
    have hlonger : Derives (.chain op) (u ++ (w ++ w') ++ k ++ a) (.logical op x y) :=
      .join hu (hw.append hw') ((Connective.Spells.append_iff ha.ne_nil).1 hk) ha
    obtain ⟨v, hu₂, hv⟩ := ihmore f hf _ w₂ hlonger hw₂
    rw [ht, hu₂] at hs
    refine ⟨w' ++ k ++ a ++ w₂ ++ v, by simpa using hs, ?_⟩
    simpa using hv
  | groupStuck h _ ih =>
    rintro f ⟨⟩
    obtain ⟨w, rfl, hw⟩ := exists_of_opening h
    obtain ⟨u, rfl, hu⟩ := ih _ rfl
    exact ⟨w ++ '(' :: u, by simp, hu.group hw⟩
  | group => exact nofun
  | @unclosed s t u n x h hinner hclosing ih =>
    rintro f ⟨⟩
    obtain ⟨w, rfl, hw⟩ := exists_of_opening h
    obtain ⟨a, w₁, rfl, ha, hw₁⟩ := begins_of_runs hinner
    obtain ⟨w₂, hu, hw₂⟩ := exists_eq_append_skipSpace u
    refine ⟨w ++ '(' :: (a ++ (w₁ ++ w₂)), ?_, ha.viable_group hw (hw₁.append hw₂)⟩
    conv_lhs => rw [hu]
    simp
  | @comparison s h =>
    intro f hf
    obtain ⟨w, hs, hw⟩ := exists_eq_append_skipSpace s
    obtain ⟨u, hu, hviable⟩ := viable_of_readComparison (plain_eq_error_iff.1 hf)
    exact ⟨w ++ u, by rw [List.append_assoc, ← hu, ← hs], hviable w hw⟩
  | @blank s h =>
    rintro f ⟨⟩
    have hand : (Phrase.chain .and).Viable [] := .single (viable_of_spaces .nil)
    have hor : (Phrase.chain .or).Viable [] := .single hand
    obtain ⟨v, x, hx⟩ := exists_readAll_of_viable (skipSpace_eq_nil_iff.1 h) hor
    exact ⟨s, by simp, v, x, by simpa using hx⟩
  | @textStuck s n g h _ ih =>
    rintro f ⟨⟩
    obtain ⟨w, hs, hw⟩ := exists_eq_append_skipSpace s
    obtain ⟨u, hu, hviable⟩ := ih _ rfl
    exact ⟨w ++ u, by rw [List.append_assoc, ← hu, ← hs], exists_readAll_of_viable hw hviable⟩
  | @leftover s t n x h hall hend ih =>
    rintro f ⟨⟩
    obtain ⟨w, hs, hw⟩ := exists_eq_append_skipSpace s
    obtain ⟨u, w', hu, hx, hw'⟩ := begins_of_runs hall
    obtain ⟨w'', ht, hw''⟩ := exists_eq_append_skipSpace t
    refine ⟨w ++ (u ++ (w' ++ w'')), ?_, [], x, ?_⟩
    · rw [hs, hu]
      conv_lhs => rw [ht]
      simp
    · rw [List.append_nil, readAll_append hw, readAll_eq_ok_iff_spelled]
      exact ⟨u, w' ++ w'', rfl, hx, hw'.append hw''⟩
  | text => exact nofun

/-- A run takes a character at least for each of its turns and groups. -/
theorem Runs.length_le (h : Runs σ s n r) : n + (unread r).length ≤ s.length := by
  induction h with
  | chainStuck _ ih => exact ih
  | chain _ _ ihfirst ihmore =>
    rw [unread_ok] at ihfirst
    omega
  | @stop op s x =>
    have := length_skipSpace_le s
    rw [unread_ok]
    omega
  | turnStuck x h _ ih =>
    have := length_lt_of_take h
    omega
  | turn h _ _ ihnext ihmore =>
    have := length_lt_of_take h
    rw [unread_ok] at ihnext
    omega
  | groupStuck h _ ih =>
    have := length_lt_of_opening h
    omega
  | @group s t u v n x h _ hclosing ih =>
    have := length_lt_of_opening h
    have := length_skipSpace_le u
    rw [hclosing, List.length_cons] at this
    simp only [unread_ok] at ih ⊢
    omega
  | @unclosed s t u n x h _ _ ih =>
    have := length_lt_of_opening h
    have := length_skipSpace_le u
    simp only [unread_ok, unread_error] at ih ⊢
    omega
  | @comparison s h =>
    have := length_skipSpace_le s
    cases hread : readComparison (skipSpace s) with
    | error f =>
      obtain ⟨u, hu, -⟩ := viable_of_readComparison hread
      have hlength := congrArg List.length hu
      rw [List.length_append] at hlength
      simp only [plain, Except.map, unread]
      omega
    | ok a =>
      have := a.2.2
      simp only [plain, Except.map, unread]
      omega
  | blank => exact Nat.zero_le _
  | @textStuck s n f _ _ ih =>
    have := length_skipSpace_le s
    omega
  | @leftover s t n x _ _ _ ih =>
    have := length_skipSpace_le s
    have := length_skipSpace_le t
    simp only [unread_ok, unread_error] at ih ⊢
    omega
  | @text s t n x _ _ _ ih =>
    have := length_skipSpace_le s
    simp only [unread_ok, List.length_nil] at ih ⊢
    omega

/-! ## Positions -/

theorem byteLength_eq (s : List Char) : byteLength s = (String.ofList s).utf8ByteSize := by
  induction s with
  | nil => rfl
  | cons c s ih =>
    rw [String.ofList_cons, String.utf8ByteSize_append, String.utf8ByteSize_singleton, ← ih]
    rfl

theorem position_inText (u : List Char) (f : Failure) :
    (f.inText (u ++ f.rest)).position = (String.ofList u).utf8ByteSize := by
  rw [Failure.inText, byteLength_eq, byteLength_eq, String.ofList_append,
    String.utf8ByteSize_append, Nat.add_sub_cancel]

/-- What stands before a failure in a text can be completed to a selector. -/
theorem completable_of_readAll (h : readAll s = .error f) :
    ∃ u, s = u ++ f.rest ∧ ∃ v x, readAll (u ++ v) = .ok x := by
  obtain ⟨n, hrun⟩ := hasRun_text s
  refine hrun.explains f ?_
  rw [Stage.read, h]
  rfl

/-- Reading comes to an end on every text. Each turn of a chain and each group goes on in a shorter
text, and a run has no more of them than characters that it takes. Where a text is not read, the
error is told at a place in it that lies between two characters, and what stands before that place
is the beginning of a text that is read. -/
theorem position_of_read_error (text : String) :
    (∃ n, Runs .text text.toList n (Stage.text.read text.toList)) ∧
    (∀ σ s n r, Runs σ s n r → σ.read s = r ∧ n + (unread r).length ≤ s.length) ∧
    (∀ op s t, takeConnective? op (skipSpace s) = some t → t.1.length < s.length) ∧
    (∀ s t, skipSpace s = '(' :: t → t.length < s.length) ∧
    ∀ e, read text = .error e →
      e.position ≤ text.utf8ByteSize ∧ String.Pos.Raw.IsValid text ⟨e.position⟩ ∧
      ∃ before after, text = before ++ after ∧ before.utf8ByteSize = e.position ∧
        ∃ rest x, read (before ++ rest) = .ok x := by
  refine ⟨hasRun_text _, fun σ s n r h => ⟨h.read_eq, h.length_le⟩,
    fun op s t => length_lt_of_take, fun s t => length_lt_of_opening, fun e he => ?_⟩
  obtain ⟨f, hread, rfl⟩ : ∃ f, readAll text.toList = .error f ∧ f.inText text.toList = e := by
    unfold read at he
    cases hread : readAll text.toList with
    | error f =>
      rw [hread] at he
      cases he
      exact ⟨f, rfl, rfl⟩
    | ok x =>
      rw [hread] at he
      cases he
  obtain ⟨u, hs, v, x, hx⟩ := completable_of_readAll hread
  have hposition := position_inText u f
  rw [← hs] at hposition
  have htext : text = String.ofList u ++ String.ofList f.rest := by
    rw [← String.ofList_append, ← hs, String.ofList_toList]
  rw [hposition]
  refine ⟨?_, ?_, _, _, htext, rfl, String.ofList v, x, ?_⟩
  · conv_rhs => rw [htext]
    rw [String.utf8ByteSize_append]
    exact Nat.le_add_right _ _
  · exact String.Pos.Raw.isValid_iff_exists_append.2 ⟨_, _, htext, rfl⟩
  · rw [read_eq_ok_iff, String.toList_append, String.toList_ofList, String.toList_ofList]
    exact hx

end Selector

end SearchFilter
