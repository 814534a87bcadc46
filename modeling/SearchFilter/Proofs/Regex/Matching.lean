import Mathlib.Data.List.Infix

/-!
# What regular expressions match

A regular expression matches a word of a text, and it is found in a text when it matches a word
anywhere in it. Which words an anchor matches depends on what stands around; without anchors only
the word itself counts.

Main statements: the words of a sequence and of a choice come from those of their parts
(`matches_sequence_append_iff`, `matches_choice_iff`), and `found_iff_of_anchorFree`.
-/

namespace SearchFilter

/-- A regular expression. -/
inductive Regex where
  | never
  | empty
  | char (c : Char)
  | any
  | atStart
  | atEnd
  | seq (r s : Regex)
  | alt (r s : Regex)
  | star (r : Regex)
  deriving DecidableEq, Repr

namespace Regex

/-- A regular expression matches a word between two texts. -/
inductive Matches : Regex → List Char → List Char → List Char → Prop
  | empty {before after} : Matches .empty before [] after
  | char {before after c} : Matches (.char c) before [c] after
  | any {before after c} : Matches .any before [c] after
  | atStart {after} : Matches .atStart [] [] after
  | atEnd {before} : Matches .atEnd before [] []
  | seq {r s before u w after} (left : Matches r before u (w ++ after))
      (right : Matches s (before ++ u) w after) : Matches (.seq r s) before (u ++ w) after
  | left {r s before w after} (h : Matches r before w after) : Matches (.alt r s) before w after
  | right {r s before w after} (h : Matches s before w after) : Matches (.alt r s) before w after
  | stop {r before after} : Matches (.star r) before [] after
  | again {r before u w after} (first : Matches r before u (w ++ after))
      (rest : Matches (.star r) (before ++ u) w after) : Matches (.star r) before (u ++ w) after

/-- A regular expression is found in a text. -/
def Found (r : Regex) (text : List Char) : Prop :=
  ∃ before w after, text = before ++ w ++ after ∧ r.Matches before w after

/-- Regular expressions one after the other. -/
def sequence (rs : List Regex) : Regex := rs.foldr .seq .empty

/-- One of several sequences. -/
def choice (branches : List (List Regex)) : Regex :=
  branches.foldr (fun branch r => .alt (sequence branch) r) .never

variable {r s : Regex} {before w after : List Char}

/-! ## Words of each kind of expression -/

theorem matches_empty_iff : Matches .empty before w after ↔ w = [] := by
  constructor
  · intro h
    cases h
    rfl
  · rintro rfl
    exact .empty

theorem matches_char_iff {c : Char} : Matches (.char c) before w after ↔ w = [c] := by
  constructor
  · intro h
    cases h
    rfl
  · rintro rfl
    exact .char

theorem matches_seq_iff :
    Matches (.seq r s) before w after ↔
      ∃ u v, w = u ++ v ∧ Matches r before u (v ++ after) ∧ Matches s (before ++ u) v after := by
  constructor
  · intro h
    cases h with
    | seq left right => exact ⟨_, _, rfl, left, right⟩
  · rintro ⟨u, v, rfl, left, right⟩
    exact .seq left right

theorem matches_alt_iff :
    Matches (.alt r s) before w after ↔ Matches r before w after ∨ Matches s before w after := by
  constructor
  · intro h
    cases h with
    | left h => exact .inl h
    | right h => exact .inr h
  · exact fun h => h.elim .left .right

/-! ## Sequences and choices -/

theorem matches_sequence_cons_iff {rs : List Regex} :
    Matches (sequence (r :: rs)) before w after ↔
      ∃ u v, w = u ++ v ∧ Matches r before u (v ++ after) ∧
        Matches (sequence rs) (before ++ u) v after :=
  matches_seq_iff

theorem matches_sequence_singleton_iff :
    Matches (sequence [r]) before w after ↔ Matches r before w after := by
  rw [matches_sequence_cons_iff]
  constructor
  · rintro ⟨u, v, rfl, hr, hv⟩
    obtain rfl := matches_empty_iff.1 hv
    rwa [List.append_nil]
  · intro h
    exact ⟨w, [], (List.append_nil w).symm, h, .empty⟩

/-- A word of two sequences one after the other is a word of the first and then one of the
second. -/
theorem matches_sequence_append_iff {rs ss : List Regex} :
    Matches (sequence (rs ++ ss)) before w after ↔
      ∃ u v, w = u ++ v ∧ Matches (sequence rs) before u (v ++ after) ∧
        Matches (sequence ss) (before ++ u) v after := by
  induction rs generalizing before w with
  | nil =>
    constructor
    · intro h
      exact ⟨[], w, rfl, .empty, by rwa [List.append_nil]⟩
    · rintro ⟨u, v, rfl, hu, hv⟩
      obtain rfl := matches_empty_iff.1 hu
      rwa [List.append_nil] at hv
  | cons r rs ih =>
    rw [List.cons_append, matches_sequence_cons_iff]
    constructor
    · rintro ⟨u, w, rfl, hr, hw⟩
      obtain ⟨v, x, rfl, hv, hx⟩ := ih.1 hw
      rw [List.append_assoc] at hr hx
      exact ⟨u ++ v, x, (List.append_assoc u v x).symm, .seq hr hv, hx⟩
    · rintro ⟨u, x, rfl, hu, hx⟩
      obtain ⟨v, w, rfl, hr, hw⟩ := matches_sequence_cons_iff.1 hu
      rw [← List.append_assoc] at hr hx
      exact ⟨v, w ++ x, List.append_assoc v w x, hr, ih.2 ⟨w, x, rfl, hw, hx⟩⟩

theorem matches_choice_iff {branches : List (List Regex)} :
    Matches (choice branches) before w after ↔
      ∃ branch ∈ branches, Matches (sequence branch) before w after := by
  induction branches with
  | nil =>
    refine iff_of_false (fun h => ?_) (by simp)
    cases h
  | cons branch branches ih =>
    rw [List.exists_mem_cons_iff, ← ih]
    exact matches_alt_iff

theorem found_choice_iff {branches : List (List Regex)} {text : List Char} :
    (choice branches).Found text ↔ ∃ branch ∈ branches, (sequence branch).Found text := by
  constructor
  · rintro ⟨before, w, after, htext, h⟩
    obtain ⟨branch, hmem, hw⟩ := matches_choice_iff.1 h
    exact ⟨branch, hmem, before, w, after, htext, hw⟩
  · rintro ⟨branch, hmem, before, w, after, htext, h⟩
    exact ⟨before, w, after, htext, matches_choice_iff.2 ⟨branch, hmem, h⟩⟩

/-! ## Expressions without anchors -/

/-- Whether an expression has no anchors. -/
def anchorFree : Regex → Bool
  | never | empty | char _ | any => true
  | atStart | atEnd => false
  | seq r s | alt r s => r.anchorFree && s.anchorFree
  | star r => r.anchorFree

/-- The words of an expression that stand alone. -/
def HasWord (r : Regex) (w : List Char) : Prop := r.Matches [] w []

theorem Matches.of_anchorFree (h : r.Matches before w after) (hr : r.anchorFree = true)
    (before' after' : List Char) : r.Matches before' w after' := by
  induction h generalizing before' after' with
  | empty => exact .empty
  | char => exact .char
  | any => exact .any
  | atStart | atEnd => cases hr
  | seq _ _ ihleft ihright =>
    obtain ⟨hleft, hright⟩ := Bool.and_eq_true_iff.1 hr
    exact .seq (ihleft hleft _ _) (ihright hright _ _)
  | left _ ih => exact .left (ih (Bool.and_eq_true_iff.1 hr).1 _ _)
  | right _ ih => exact .right (ih (Bool.and_eq_true_iff.1 hr).2 _ _)
  | stop => exact .stop
  | again _ _ ihfirst ihrest => exact .again (ihfirst hr _ _) (ihrest hr _ _)

/-- Without anchors, what stands around a word does not count. -/
theorem matches_iff_hasWord (hr : r.anchorFree = true) :
    r.Matches before w after ↔ r.HasWord w :=
  ⟨fun h => h.of_anchorFree hr _ _, fun h => h.of_anchorFree hr _ _⟩

theorem anchorFree_sequence {rs : List Regex} (h : ∀ r ∈ rs, r.anchorFree = true) :
    (sequence rs).anchorFree = true :=
  List.foldrRecOn (motive := fun r : Regex => r.anchorFree = true) rs seq rfl
    fun _ hrest r hr => Bool.and_eq_true_iff.2 ⟨h r hr, hrest⟩

theorem anchorFree_choice {branches : List (List Regex)}
    (h : ∀ branch ∈ branches, ∀ r ∈ branch, r.anchorFree = true) :
    (choice branches).anchorFree = true :=
  List.foldrRecOn (motive := fun r : Regex => r.anchorFree = true) branches _ rfl
    fun _ hrest branch hbranch =>
      Bool.and_eq_true_iff.2 ⟨anchorFree_sequence (h branch hbranch), hrest⟩

/-- An expression without anchors is found where one of its words stands. -/
theorem found_iff_of_anchorFree (hr : r.anchorFree = true) {text : List Char} :
    r.Found text ↔ ∃ w, r.HasWord w ∧ w <:+: text := by
  constructor
  · rintro ⟨before, w, after, rfl, h⟩
    exact ⟨w, (matches_iff_hasWord hr).1 h, before, after, rfl⟩
  · rintro ⟨w, hw, before, after, rfl⟩
    exact ⟨before, w, after, rfl, (matches_iff_hasWord hr).2 hw⟩

/-! ## Characters that are in no word -/

/-- Whether an expression has neither a dot nor a character among its literals. -/
def avoids (c : Char) : Regex → Bool
  | never | empty | atStart | atEnd => true
  | char d => d != c
  | any => false
  | seq r s | alt r s => r.avoids c && s.avoids c
  | star r => r.avoids c

theorem Matches.not_mem_of_avoids {c : Char} (h : r.Matches before w after)
    (hr : r.avoids c = true) : c ∉ w := by
  induction h with
  | empty | atStart | atEnd | stop => exact List.not_mem_nil
  | char =>
    rw [List.mem_singleton]
    rintro rfl
    simp [avoids] at hr
  | any => cases hr
  | seq _ _ ihleft ihright =>
    obtain ⟨hleft, hright⟩ := Bool.and_eq_true_iff.1 hr
    exact List.not_mem_append (ihleft hleft) (ihright hright)
  | left _ ih => exact ih (Bool.and_eq_true_iff.1 hr).1
  | right _ ih => exact ih (Bool.and_eq_true_iff.1 hr).2
  | again _ _ ihfirst ihrest => exact List.not_mem_append (ihfirst hr) (ihrest hr)

theorem avoids_sequence {c : Char} {rs : List Regex} (h : ∀ r ∈ rs, r.avoids c = true) :
    (sequence rs).avoids c = true :=
  List.foldrRecOn (motive := fun r : Regex => r.avoids c = true) rs seq rfl
    fun _ hrest r hr => Bool.and_eq_true_iff.2 ⟨h r hr, hrest⟩

theorem avoids_choice {c : Char} {branches : List (List Regex)}
    (h : ∀ branch ∈ branches, ∀ r ∈ branch, r.avoids c = true) :
    (choice branches).avoids c = true :=
  List.foldrRecOn (motive := fun r : Regex => r.avoids c = true) branches _ rfl
    fun _ hrest branch hbranch =>
      Bool.and_eq_true_iff.2 ⟨avoids_sequence (h branch hbranch), hrest⟩

/-! ## Words of sequences -/

theorem hasWord_sequence_append_iff {rs ss : List Regex} (hrs : ∀ r ∈ rs, r.anchorFree = true)
    (hss : ∀ r ∈ ss, r.anchorFree = true) :
    (sequence (rs ++ ss)).HasWord w ↔
      ∃ u v, w = u ++ v ∧ (sequence rs).HasWord u ∧ (sequence ss).HasWord v := by
  refine matches_sequence_append_iff.trans (exists_congr fun u => exists_congr fun v => ?_)
  rw [matches_iff_hasWord (anchorFree_sequence hrs), matches_iff_hasWord (anchorFree_sequence hss)]

theorem hasWord_sequence_char_cons_iff {c : Char} {rs : List Regex}
    (hrs : ∀ r ∈ rs, r.anchorFree = true) :
    (sequence (.char c :: rs)).HasWord w ↔ ∃ v, w = c :: v ∧ (sequence rs).HasWord v := by
  have hchar : ∀ r ∈ [Regex.char c], r.anchorFree = true := List.forall_mem_singleton.2 rfl
  refine (hasWord_sequence_append_iff hchar hrs).trans ⟨?_, ?_⟩
  · rintro ⟨u, v, rfl, hu, hv⟩
    obtain rfl := matches_char_iff.1 (matches_sequence_singleton_iff.1 hu)
    exact ⟨v, rfl, hv⟩
  · rintro ⟨v, rfl, hv⟩
    exact ⟨[c], v, rfl, matches_sequence_singleton_iff.2 .char, hv⟩

/-- Literals match themselves. -/
theorem hasWord_sequence_chars_iff (cs : List Char) :
    (sequence (cs.map .char)).HasWord w ↔ w = cs := by
  induction cs generalizing w with
  | nil => exact matches_empty_iff
  | cons c cs ih =>
    rw [List.map_cons, hasWord_sequence_char_cons_iff (List.forall_mem_map.2 fun _ _ => rfl)]
    constructor
    · rintro ⟨v, rfl, hv⟩
      rw [ih.1 hv]
    · rintro rfl
      exact ⟨cs, rfl, ih.2 rfl⟩

/-- A repeated dot matches every word. -/
theorem hasWord_star_any (w : List Char) : (star any).HasWord w := by
  have hany : ∀ before : List Char, (star any).Matches before w [] := by
    induction w with
    | nil => exact fun _ => .stop
    | cons c w ih => exact fun before => .again .any (ih (before ++ [c]))
  exact hany []

theorem hasWord_sequence_star_any_cons_iff {rs : List Regex}
    (hrs : ∀ r ∈ rs, r.anchorFree = true) :
    (sequence (.star .any :: rs)).HasWord w ↔ ∃ u v, w = u ++ v ∧ (sequence rs).HasWord v := by
  have hstar : ∀ r ∈ [Regex.star .any], r.anchorFree = true := List.forall_mem_singleton.2 rfl
  refine (hasWord_sequence_append_iff hstar hrs).trans ⟨?_, ?_⟩
  · rintro ⟨u, v, hw, -, hv⟩
    exact ⟨u, v, hw, hv⟩
  · rintro ⟨u, v, hw, hv⟩
    exact ⟨u, v, hw, matches_sequence_singleton_iff.2 (hasWord_star_any u), hv⟩

end Regex

end SearchFilter
