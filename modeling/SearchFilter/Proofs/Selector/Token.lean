import Mathlib.Data.List.TakeWhile
import SearchFilter.Proofs.Selector.Grammar
import SearchFilter.Selector.Reader

/-!
# Reading the tokens of selectors

Each token is read just when it comes next, and what is left is the text after it. No token of the
grammar can be cut short or go on too far, for a property name ends before the first character that
cannot belong to it, and a quoted text at the first quote of its kind that is not escaped.
-/

namespace SearchFilter

/-! ## White space -/

theorem interval_disjoint :
    ∀ i ∈ whiteSpace.intervals, ∀ j ∈ alphanumeric.intervals, i.2 < j.1 ∨ j.2 < i.1 := by
  decide +kernel

theorem isAlphanumeric_of_isSpace {c : Char} (h : isSpace c = true) : isAlphanumeric c = false := by
  rw [Bool.eq_false_iff]
  intro halpha
  obtain ⟨i, hi, hi₁, hi₂⟩ := CharSet.has_iff.1 h
  obtain ⟨j, hj, hj₁, hj₂⟩ := CharSet.has_iff.1 halpha
  have := interval_disjoint i hi j hj
  omega

namespace Spaces

variable {w v : List Char}

theorem nil : Spaces [] := by simp [Spaces]

theorem append (hw : Spaces w) (hv : Spaces v) : Spaces (w ++ v) :=
  List.forall_mem_append.2 ⟨hw, hv⟩

end Spaces

namespace Selector

variable {c : Char} {s t w rest : List Char}

theorem skipSpace_append (hw : Spaces w) (s : List Char) : skipSpace (w ++ s) = skipSpace s := by
  rw [skipSpace, skipSpace, List.dropWhile_append_of_pos hw]

theorem skipSpace_of_not (hc : isSpace c = false) (s : List Char) :
    skipSpace (c :: s) = c :: s := by
  rw [skipSpace, List.dropWhile_cons_of_neg (by simp [hc])]

theorem exists_eq_append_skipSpace (s : List Char) : ∃ w, s = w ++ skipSpace s ∧ Spaces w :=
  ⟨s.takeWhile isSpace, List.takeWhile_append_dropWhile.symm, fun _ => List.mem_takeWhile_imp⟩

theorem skipSpace_skipSpace (s : List Char) : skipSpace (skipSpace s) = skipSpace s := by
  obtain ⟨w, hs, hw⟩ := exists_eq_append_skipSpace s
  conv_rhs => rw [hs, skipSpace_append hw]

theorem skipSpace_eq_nil_iff : skipSpace s = [] ↔ Spaces s := List.dropWhile_eq_nil_iff

/-! ## What a reader gives -/

section
variable {α : Type} {p : List Char → Prop} {a b : α} {f : Failure}

/-- Reading gives `a` and leaves `rest`. -/
def Gives (r : Except Failure (α × { t : List Char // p t })) (a : α) (rest : List Char) : Prop :=
  ∃ h, r = .ok (a, ⟨rest, h⟩)

@[simp] theorem gives_ok {t : { t : List Char // p t }} :
    Gives (.ok (a, t)) b rest ↔ b = a ∧ rest = t.1 := by
  constructor
  · rintro ⟨h, heq⟩
    cases heq
    exact ⟨rfl, rfl⟩
  · rintro ⟨rfl, rfl⟩
    exact ⟨t.2, rfl⟩

@[simp] theorem not_gives_error :
    ¬ Gives (.error f : Except Failure (α × { t // p t })) b rest := by
  rintro ⟨h, heq⟩
  cases heq

end

/-! ## Property names -/

theorem takeWhile_dropWhile_append {p : Char → Bool} (hs : ∀ c ∈ s, p c = true)
    (ht : ∀ c ∈ t.head?, p c = false) :
    (s ++ t).takeWhile p = s ∧ (s ++ t).dropWhile p = t := by
  rw [List.takeWhile_append_of_pos hs, List.dropWhile_append_of_pos hs]
  cases t with
  | nil => simp
  | cons c t =>
    have hc : p c = false := ht c rfl
    simp [hc]

theorem isPropertyChar_iff : isPropertyChar c = true ↔ IsNameChar c := by
  simp [isPropertyChar, IsNameChar, or_assoc, or_comm]

theorem IsNameChar.isSpace_eq_false (h : IsNameChar c) : isSpace c = false := by
  rw [Bool.eq_false_iff]
  intro hspace
  rcases h with h | h
  · rw [isAlphanumeric_of_isSpace hspace] at h
    cases h
  · have hmarks : ∀ c ∈ ['_', '-', '.'], isSpace c = false := by
      simp only [List.forall_mem_cons]
      exact ⟨by decide, by decide, by decide, nofun⟩
    rw [hmarks c h] at hspace
    cases hspace

theorem IsNameChar.ne_opening (h : IsNameChar c) : c ≠ '(' := by
  rintro rfl
  exact absurd (isPropertyChar_iff.2 h) (by decide +kernel)

theorem hasDoubleDot_iff : hasDoubleDot s = true ↔ ['.', '.'] <:+: s := by
  induction s with
  | nil => simp [hasDoubleDot]
  | cons a t ih =>
    rw [List.infix_cons_iff, ← ih]
    cases t with
    | nil => simp [hasDoubleDot]
    | cons b rest =>
      rw [hasDoubleDot, Bool.or_eq_true, Bool.and_eq_true, beq_iff_eq, beq_iff_eq,
        List.cons_prefix_cons, List.cons_prefix_cons, eq_comm (a := '.'), eq_comm (a := '.')]
      simp

theorem dotsSeparate_iff :
    dotsSeparate s = true ↔
      s.head? ≠ some '.' ∧ s.getLast? ≠ some '.' ∧ ¬ ['.', '.'] <:+: s := by
  rw [← hasDoubleDot_iff]
  simp [dotsSeparate, and_assoc]

/-- A property name is read up to the first character that cannot belong to it. -/
theorem readProperty_gives_iff {property : String} :
    Gives (readProperty s) property rest ↔
      ∃ name, IsPropertyName name ∧ property = String.ofList name ∧ s = name ++ rest ∧
        ∀ c ∈ rest.head?, ¬ IsNameChar c := by
  constructor
  · intro h
    unfold readProperty at h
    split at h
    · exact absurd h not_gives_error
    · next c t =>
      split at h
      · next hc =>
        dsimp only at h
        split at h
        · next hdots =>
          obtain ⟨rfl, rfl⟩ := gives_ok.1 h
          obtain ⟨hhead, hlast, hdoubled⟩ := dotsSeparate_iff.1 hdots
          refine ⟨_, ⟨?_, ?_, hhead, hlast, hdoubled⟩, rfl,
            List.takeWhile_append_dropWhile.symm, ?_⟩
          · rw [List.takeWhile_cons_of_pos hc]
            exact List.cons_ne_nil _ _
          · intro c hmem
            exact isPropertyChar_iff.1 (List.mem_takeWhile_imp hmem)
          · intro c hmem
            have hfind := List.find?_some ((List.find?_not_eq_head?_dropWhile _ _).trans hmem)
            rw [← isPropertyChar_iff]
            simpa using hfind
        · exact absurd h not_gives_error
      · exact absurd h not_gives_error
  · rintro ⟨name, hname, rfl, rfl, hrest⟩
    have hall : ∀ c ∈ name, isPropertyChar c = true := fun c hc =>
      isPropertyChar_iff.2 (hname.isNameChar c hc)
    obtain ⟨htake, hdrop⟩ := takeWhile_dropWhile_append hall fun c hc =>
      Bool.eq_false_iff.2 fun h => hrest c hc (isPropertyChar_iff.1 h)
    have hdots := dotsSeparate_iff.2 ⟨hname.head_ne, hname.last_ne, hname.not_doubled⟩
    cases name with
    | nil => exact absurd rfl hname.ne_nil
    | cons c t =>
      rw [List.cons_append] at htake hdrop ⊢
      rw [readProperty, dif_pos (hall c List.mem_cons_self)]
      dsimp only
      rw [htake, if_pos hdots]
      exact gives_ok.2 ⟨rfl, hdrop.symm⟩

/-! ## Comparators -/

theorem ofToken?_eq_some_iff {token : String} {op : Comparator} :
    Comparator.ofToken? token = some op ↔ token = op.token := by
  constructor
  · intro h
    have hop := List.find?_some h
    exact (eq_of_beq hop).symm
  · rintro rfl
    cases op <;> rfl

theorem readComparator_gives_iff {op : Comparator} :
    Gives (readComparator s) op rest ↔ s = op.token.toList ++ rest := by
  constructor
  · intro h
    unfold readComparator at h
    split at h
    · next a b t =>
      split at h
      · next op' hop =>
        obtain ⟨rfl, rfl⟩ := gives_ok.1 h
        rw [← ofToken?_eq_some_iff.1 hop, String.toList_ofList]
        rfl
      · exact absurd h not_gives_error
    · exact absurd h not_gives_error
  · rintro rfl
    cases op <;> exact ⟨_, rfl⟩

theorem token_ne_nil (op : Comparator) : op.token.toList ≠ [] := by
  cases op <;> exact List.cons_ne_nil _ _

theorem skipSpace_token (op : Comparator) (s : List Char) :
    skipSpace (op.token.toList ++ s) = op.token.toList ++ s := by
  cases op <;> exact skipSpace_of_not (by decide) _

/-! ## Quoted texts -/

theorem isSpace_quote (hc : c ∈ ['"', '\'']) : isSpace c = false := by
  rcases List.mem_pair.1 hc with rfl | rfl <;> decide

theorem escapes_iff {v : List Char} : Escapes c v ↔ v = unescape c := by
  constructor
  · intro h
    cases h with
    | newline | tab | carriageReturn => rfl
    | quote hc =>
      rcases List.mem_pair.1 hc with rfl | rfl
      · rfl
      · rfl
    | other hc =>
      unfold unescape
      split
      all_goals simp at hc ⊢
  · rintro rfl
    unfold unescape
    split
    · exact .newline
    · exact .tab
    · exact .carriageReturn
    · exact .quote (by simp)
    · exact .quote (by simp)
    · next hn ht hr hd hs => exact .other (by simp; exact ⟨hn, ht, hr, hd, hs⟩)

theorem readQuoted_gives_iff {quote : Char} (hquote : quote ≠ '\\') {value : List Char} :
    Gives (readQuoted quote s) value rest ↔
      ∃ source, s = source ++ quote :: rest ∧ Quotes quote source value := by
  constructor
  · intro h
    fun_induction readQuoted quote s generalizing value with
    | case1 => exact absurd h not_gives_error
    | case2 t =>
      obtain ⟨rfl, rfl⟩ := gives_ok.1 h
      exact ⟨[], rfl, .nil⟩
    | case3 => exact absurd h not_gives_error
    | case4 e t text r hr hread hq ih =>
      obtain ⟨rfl, rfl⟩ := gives_ok.1 h
      obtain ⟨source, rfl, hsource⟩ := ih ⟨hr, hread⟩
      exact ⟨'\\' :: e :: source, rfl, .escape (escapes_iff.2 rfl) hsource⟩
    | case5 => exact absurd h not_gives_error
    | case6 c t hq hc text r hr hread ih =>
      obtain ⟨rfl, rfl⟩ := gives_ok.1 h
      obtain ⟨source, rfl, hsource⟩ := ih ⟨hr, hread⟩
      exact ⟨c :: source, rfl, .plain hq hc hsource⟩
    | case7 => exact absurd h not_gives_error
  · rintro ⟨source, rfl, h⟩
    induction h with
    | nil =>
      rw [List.nil_append]
      unfold readQuoted
      rw [if_pos rfl]
      exact gives_ok.2 ⟨rfl, rfl⟩
    | plain hq hc h ih =>
      obtain ⟨hr, hread⟩ := ih
      rw [List.cons_append]
      unfold readQuoted
      rw [if_neg hq, if_neg hc, hread]
      exact gives_ok.2 ⟨rfl, rfl⟩
    | escape hc h ih =>
      obtain ⟨hr, hread⟩ := ih
      rw [List.cons_append, List.cons_append]
      unfold readQuoted
      rw [if_neg (Ne.symm hquote), if_pos rfl]
      simp only [hread]
      exact gives_ok.2 ⟨by rw [escapes_iff.1 hc], rfl⟩

theorem readText_gives_iff {text : String} :
    Gives (readText s) text rest ↔ ∃ quote source value, quote ∈ ['"', '\''] ∧
      s = quote :: source ++ quote :: rest ∧ Quotes quote source value ∧
      text = String.ofList value := by
  constructor
  · intro h
    unfold readText at h
    split at h
    · exact absurd h not_gives_error
    · next c t =>
      split at h
      · next hc =>
        have hquote : c ≠ '\\' := by rcases hc with rfl | rfl <;> decide
        split at h
        · next value r hr hread =>
          obtain ⟨rfl, rfl⟩ := gives_ok.1 h
          obtain ⟨source, rfl, hsource⟩ := (readQuoted_gives_iff hquote).1 ⟨hr, hread⟩
          exact ⟨c, source, value, List.mem_pair.2 hc, rfl, hsource, rfl⟩
        · exact absurd h not_gives_error
      · exact absurd h not_gives_error
  · rintro ⟨quote, source, value, hquote, rfl, hsource, rfl⟩
    rw [List.mem_pair] at hquote
    have hne : quote ≠ '\\' := by rcases hquote with rfl | rfl <;> decide
    obtain ⟨hr, hread⟩ := (readQuoted_gives_iff hne).2 ⟨source, rfl, hsource⟩
    rw [List.cons_append, readText, if_pos hquote, hread]
    exact gives_ok.2 ⟨rfl, rfl⟩

/-! ## Connectives -/

theorem endsWord_iff :
    endsWord s = true ↔ ∀ c ∈ s.head?, isAlphanumeric c = false ∧ c ≠ '_' := by
  cases s with
  | nil => simp [endsWord]
  | cons c t => simp [endsWord]

/-- The characters that a connective can begin with. -/
def initials : Connective → List Char
  | .and => ['&', 'a', 'A']
  | .or => ['|', 'o', 'O']

theorem eq_or_eq_of_toLower {d u : Char} (h : c.toLower = d)
    (hu : u.val + ('a'.val - 'A'.val) = d.val) : c = d ∨ c = u := by
  unfold Char.toLower at h
  split at h
  · have hval : c.val + ('a'.val - 'A'.val) = d.val := congrArg Char.val h
    have hc : c.val = u.val := by grind
    exact .inr (Char.ext hc)
  · exact .inl h

theorem exists_mem_initials {op : Connective} {k : List Char} (h : op.Spells k rest) :
    ∃ c ∈ initials op, ∃ t, k = c :: t := by
  cases h with
  | sign => cases op <;> exact ⟨_, List.mem_cons_self, _, rfl⟩
  | word hk =>
    cases op with
    | and =>
      obtain ⟨a, t, rfl, ha, -⟩ := List.map_eq_cons_iff.1 hk
      have ha' : a = 'a' ∨ a = 'A' := eq_or_eq_of_toLower ha rfl
      exact ⟨a, by simp [initials, ha'], t, rfl⟩
    | or =>
      obtain ⟨o, t, rfl, ho, -⟩ := List.map_eq_cons_iff.1 hk
      have ho' : o = 'o' ∨ o = 'O' := eq_or_eq_of_toLower ho rfl
      exact ⟨o, by simp [initials, ho'], t, rfl⟩

theorem isSpace_initials (op : Connective) : ∀ c ∈ initials op, isSpace c = false := by
  cases op with
  | and | or =>
    simp only [initials, List.forall_mem_cons]
    exact ⟨by decide, by decide, by decide, nofun⟩

theorem skipSpace_of_spells {op : Connective} {k : List Char} (h : op.Spells k rest) :
    skipSpace (k ++ rest) = k ++ rest := by
  obtain ⟨c, hc, t, rfl⟩ := exists_mem_initials h
  exact skipSpace_of_not (isSpace_initials op c hc) _

/-- A connective is taken just when it comes next. -/
theorem takeConnective?_eq_some_iff {op : Connective} :
    (takeConnective? op s).map Subtype.val = some rest ↔ ∃ k, op.Spells k rest ∧ s = k ++ rest := by
  constructor
  · intro h
    unfold takeConnective? at h
    split at h
    · cases h
      exact ⟨_, .sign _, rfl⟩
    · next a n d t _ =>
      split at h
      · next hword =>
        cases h
        exact ⟨[a, n, d], .word hword.1 (endsWord_iff.1 hword.2), rfl⟩
      · cases h
    · cases h
      exact ⟨_, .sign _, rfl⟩
    · next o r t _ =>
      split at h
      · next hword =>
        cases h
        exact ⟨[o, r], .word hword.1 (endsWord_iff.1 hword.2), rfl⟩
      · cases h
    · cases h
  · rintro ⟨k, hk, rfl⟩
    cases hk with
    | sign => cases op <;> rfl
    | word hk hnext =>
      have hends := endsWord_iff.2 hnext
      cases op with
      | and =>
        obtain ⟨a, k, rfl, ha, hk⟩ := List.map_eq_cons_iff.1 hk
        obtain ⟨n, k, rfl, hn, hk⟩ := List.map_eq_cons_iff.1 hk
        obtain ⟨d, k, rfl, hd, hk⟩ := List.map_eq_cons_iff.1 hk
        obtain rfl := List.map_eq_nil_iff.1 hk
        have hsign : a ≠ '&' := by
          rintro rfl
          cases ha
        simp [takeConnective?, ha, hn, hd, hends, hsign]
      | or =>
        obtain ⟨o, k, rfl, ho, hk⟩ := List.map_eq_cons_iff.1 hk
        obtain ⟨r, k, rfl, hr, hk⟩ := List.map_eq_cons_iff.1 hk
        obtain rfl := List.map_eq_nil_iff.1 hk
        have hsign : o ≠ '|' := by
          rintro rfl
          cases ho
        simp [takeConnective?, ho, hr, hends, hsign]

/-- No connective is taken where the next character cannot begin it. -/
theorem takeConnective?_eq_none {op : Connective} (h : ∀ c ∈ s.head?, c ∉ initials op) :
    takeConnective? op s = none := by
  cases htake : takeConnective? op s with
  | none => rfl
  | some r =>
    obtain ⟨k, hk, hs⟩ := takeConnective?_eq_some_iff.1 (congrArg (Option.map Subtype.val) htake)
    obtain ⟨c, hc, t, rfl⟩ := exists_mem_initials hk
    exact absurd hc (h c (by simp [hs]))

theorem takeConnective?_and_of_spells {k : List Char} (h : Connective.or.Spells k rest) :
    takeConnective? .and (k ++ rest) = none := by
  obtain ⟨c, hc, t, rfl⟩ := exists_mem_initials h
  have hdiffer : ∀ c ∈ initials .or, c ∉ initials .and := by
    simp only [initials, List.forall_mem_cons]
    exact ⟨by decide, by decide, by decide, nofun⟩
  refine takeConnective?_eq_none fun d hd => ?_
  obtain rfl : c = d := by simpa using hd
  exact hdiffer c hc

end Selector

end SearchFilter
