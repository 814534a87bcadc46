import SearchFilter.Proofs.Regex.Element
import SearchFilter.Proofs.Regex.Stored

/-!
# Regular expressions and the elements of a list

A regular expression for elements is looked for in the text of a whole list. Its match stays within
one element as long as what stands between the marks does. A dot can match the separators too, and
then the marks of two elements are taken for those of one.

Main statements: `exists_finds_single`, and `finds_across_elements`, where the words do reach over a
separator.
-/

namespace SearchFilter

namespace Regex

variable {w : List Char}

/-! ## Words between marks -/

theorem hasWord_choice_pairs_iff {c d e f : Char} :
    (choice [[.char c, .char d], [.char e, .char f]]).HasWord w ↔ w = [c, d] ∨ w = [e, f] := by
  rw [HasWord, matches_choice_iff, List.exists_mem_cons_iff, List.exists_mem_cons_iff]
  simp only [List.not_mem_nil, false_and, exists_false, or_false]
  exact or_congr (hasWord_sequence_chars_iff [c, d]) (hasWord_sequence_chars_iff [e, f])

theorem hasWord_opening_iff : opening.HasWord w ↔ Opens true w := hasWord_choice_pairs_iff

theorem hasWord_closing_iff : closing.HasWord w ↔ Closes true w := hasWord_choice_pairs_iff

theorem hasWord_sequence_opening_iff {b : Bool} :
    (sequence (if b then [opening] else [])).HasWord w ↔ Opens b w := by
  cases b with
  | false => exact matches_empty_iff
  | true => exact matches_sequence_singleton_iff.trans hasWord_opening_iff

theorem hasWord_sequence_closing_iff {b : Bool} :
    (sequence (if b then [closing] else [])).HasWord w ↔ Closes b w := by
  cases b with
  | false => exact matches_empty_iff
  | true => exact matches_sequence_singleton_iff.trans hasWord_closing_iff

/-- An alternative is found with the marks it is bound to around one of its words. -/
theorem found_around_iff {s : Strand} (hs : ∀ r ∈ s.items, r.anchorFree = true)
    {text : List Char} :
    (sequence (s.around opening closing)).Found text ↔
      ∃ m w n, Opens s.opens m ∧ (sequence s.items).HasWord w ∧ Closes s.closes n ∧
        m ++ w ++ n <:+: text := by
  have hmark : ∀ {mark : Regex}, mark.anchorFree = true → ∀ b : Bool,
      ∀ r ∈ (if b then [mark] else []), r.anchorFree = true := by
    intro mark hfree b r hr
    cases b with
    | false => cases hr
    | true => exact (List.mem_singleton.1 hr).symm ▸ hfree
  have hleft : ∀ r ∈ (if s.opens then [opening] else []) ++ s.items, r.anchorFree = true :=
    List.forall_mem_append.2 ⟨hmark rfl s.opens, hs⟩
  have hright : ∀ r ∈ (if s.closes then [closing] else []), r.anchorFree = true :=
    hmark rfl s.closes
  have hall := anchorFree_sequence (List.forall_mem_append.2 ⟨hleft, hright⟩)
  rw [Strand.around, found_iff_of_anchorFree hall]
  constructor
  · rintro ⟨x, hx, hfound⟩
    obtain ⟨y, n, rfl, hy, hn⟩ := (hasWord_sequence_append_iff hleft hright).1 hx
    obtain ⟨m, w, rfl, hm, hw⟩ := (hasWord_sequence_append_iff (hmark rfl s.opens) hs).1 hy
    exact ⟨m, w, n, hasWord_sequence_opening_iff.1 hm, hw, hasWord_sequence_closing_iff.1 hn,
      hfound⟩
  · rintro ⟨m, w, n, hm, hw, hn, hfound⟩
    have hy := (hasWord_sequence_append_iff (hmark rfl s.opens) hs).2
      ⟨m, w, rfl, hasWord_sequence_opening_iff.2 hm, hw⟩
    exact ⟨m ++ w ++ n, (hasWord_sequence_append_iff hleft hright).2
      ⟨m ++ w, n, rfl, hy, hasWord_sequence_closing_iff.2 hn⟩, hfound⟩

/-! ## Staying within an element -/

/-- Every word of an alternative has a word of it in it that reaches over no separator, and that
starts and ends with it where a mark is bound to the alternative. -/
def Strand.StaysInside (s : Strand) : Prop :=
  ∀ w, (sequence s.items).HasWord w → ∃ x w' y, w = x ++ w' ++ y ∧ (s.opens = true → x = []) ∧
    (s.closes = true → y = []) ∧ (sequence s.items).HasWord w' ∧ SearchFilter.StaysInside w'

/-- What is next to a word that a mark is not bound to can be left out. -/
theorem infix_of_bound {m x w y n text : List Char} {opens closes : Bool} (hm : Opens opens m)
    (hn : Closes closes n) (hx : opens = true → x = []) (hy : closes = true → y = [])
    (h : m ++ (x ++ w ++ y) ++ n <:+: text) : m ++ w ++ n <:+: text := by
  refine List.IsInfix.trans ?_ h
  cases opens with
  | true =>
    cases closes with
    | true => rw [hx rfl, hy rfl, List.nil_append, List.append_nil]
    | false =>
      obtain rfl : n = [] := hn
      rw [hx rfl]
      exact ⟨[], y, by simp⟩
  | false =>
    obtain rfl : m = [] := hm
    cases closes with
    | true =>
      rw [hy rfl]
      exact ⟨x, [], by simp⟩
    | false =>
      obtain rfl : n = [] := hn
      exact ⟨x, y, by simp⟩

variable {p : String} {bs : List (List Regex)}

theorem anchorFree_of_mem_elementStrands {a : Anchored}
    (hfree : ∀ b ∈ bs, ∀ r ∈ b, r.anchorFree = true) {s : Strand} (hs : s ∈ a.elementStrands bs) :
    ∀ r ∈ s.items, r.anchorFree = true := by
  rcases items_of_mem_elementStrands hs with hitems | hitems
  · exact hfree _ hitems
  · rw [hitems, List.forall_mem_singleton]
    exact anchorFree_choice hfree

/-- Alternatives without dots reach over no separator if neither a quote nor a comma is among their
literals. -/
theorem staysInside_of_mem_elementStrands {a : Anchored}
    (hquote : ∀ b ∈ bs, ∀ r ∈ b, r.avoids '"' = true)
    (hcomma : ∀ b ∈ bs, ∀ r ∈ b, r.avoids ',' = true) {s : Strand}
    (hs : s ∈ a.elementStrands bs) : s.StaysInside := by
  have havoids : ∀ {c : Char}, (∀ b ∈ bs, ∀ r ∈ b, r.avoids c = true) →
      (sequence s.items).avoids c = true := by
    intro c h
    rcases items_of_mem_elementStrands hs with hitems | hitems
    · exact avoids_sequence (h _ hitems)
    · rw [hitems]
      exact avoids_sequence (List.forall_mem_singleton.2 (avoids_choice h))
  intro w hw
  have hne : w ≠ [','] := by
    rintro rfl
    exact hw.not_mem_of_avoids (havoids hcomma) List.mem_cons_self
  exact ⟨[], w, [], by simp, fun _ => rfl, fun _ => rfl, hw,
    staysInside_of_not_mem (hw.not_mem_of_avoids (havoids hquote)) hne⟩

/-- The regular expression for an element is found where one of its alternatives is, with the marks
it is bound to. -/
theorem finds_elementRegex_iff (hread : (Anchored.of p).branches? = some bs)
    (hfree : ∀ b ∈ bs, ∀ r ∈ b, r.anchorFree = true) {text : String} :
    Finds (elementRegex p) text ↔ ∃ s ∈ (Anchored.of p).elementStrands bs,
      ∃ m w n, Opens s.opens m ∧ (sequence s.items).HasWord w ∧ Closes s.closes n ∧
        m ++ w ++ n <:+: text.toList := by
  rw [finds_iff_of_branches? (branches?_elementRegex hread)]
  simp only [List.mem_map, exists_exists_and_eq_and]
  exact exists_congr fun s => and_congr_right fun hs =>
    found_around_iff (anchorFree_of_mem_elementStrands hfree hs)

/-- A regular expression for elements that is found in the text of a list is found in the text of
one of its elements, when its alternatives reach over no separator. -/
theorem exists_finds_single (hread : (Anchored.of p).branches? = some bs)
    (hfree : ∀ b ∈ bs, ∀ r ∈ b, r.anchorFree = true)
    (hinside : ∀ s ∈ (Anchored.of p).elementStrands bs, s.StaysInside) {values : List String}
    (hne : values ≠ []) (h : Finds (elementRegex p) (storedList values)) :
    ∃ v ∈ values, Finds (elementRegex p) (storedList [v]) := by
  obtain ⟨s, hs, m, w, n, hm, hw, hn, hfound⟩ := (finds_elementRegex_iff hread hfree).1 h
  obtain ⟨x, w', y, rfl, hx, hy, hw', hstays⟩ := hinside s hs w hw
  obtain ⟨v, hv, m', n', hm', hn', hsingle⟩ :=
    hstays.exists_single hm hn hne (infix_of_bound hm hn hx hy hfound)
  exact ⟨v, hv, (finds_elementRegex_iff hread hfree).2 ⟨s, hs, m', w', n', hm', hw', hn', hsingle⟩⟩

/-- A path under a directory is matched from its start on, and what the dot matches after that does
not count. -/
theorem exists_finds_single_org :
    Finds (elementRegex "^/org/.*") (storedList ["/org/a", "b"]) ∧
      ∃ v ∈ ["/org/a", "b"], Finds (elementRegex "^/org/.*") (storedList [v]) := by
  have hread : (Anchored.of "^/org/.*").branches? =
      some ["/org/".toList.map .char ++ [.star .any]] := by decide +kernel
  have hfree : ∀ b ∈ ["/org/".toList.map Regex.char ++ [.star .any]],
      ∀ r ∈ b, r.anchorFree = true := by decide
  have hstrands : (Anchored.of "^/org/.*").elementStrands
      ["/org/".toList.map .char ++ [.star .any]] =
        [⟨true, "/org/".toList.map .char ++ [.star .any], false⟩] := by decide
  have hword : ∀ w, (sequence ("/org/".toList.map .char ++ [.star .any])).HasWord w ↔
      ∃ v, w = "/org/".toList ++ v := by
    intro w
    refine (hasWord_sequence_append_iff (by decide) (by decide)).trans ⟨?_, ?_⟩
    · rintro ⟨u, v, rfl, hu, -⟩
      exact ⟨v, congrArg (· ++ v) ((hasWord_sequence_chars_iff _).1 hu)⟩
    · rintro ⟨v, rfl⟩
      exact ⟨_, v, rfl, (hasWord_sequence_chars_iff _).2 rfl,
        matches_sequence_singleton_iff.2 (hasWord_star_any v)⟩
  have hfound : Finds (elementRegex "^/org/.*") (storedList ["/org/a", "b"]) := by
    rw [finds_elementRegex_iff hread hfree, hstrands]
    exact ⟨_, List.mem_cons_self, ['[', '"'], "/org/".toList, [], .inl rfl, (hword _).2 ⟨[], rfl⟩,
      rfl, by decide +kernel⟩
  refine ⟨hfound, exists_finds_single hread hfree ?_ (by decide) hfound⟩
  rw [hstrands, List.forall_mem_singleton]
  intro w hw
  obtain ⟨v, rfl⟩ := (hword w).1 hw
  refine ⟨[], "/org/".toList, v, rfl, fun _ => rfl, fun hcloses => ?_, (hword _).2 ⟨[], rfl⟩,
    staysInside_of_not_mem (by decide) (by decide)⟩
  cases hcloses

/-- The dot matches quotes and commas as well: here the marks of two elements are taken for those of
one. -/
theorem finds_across_elements :
    Finds (elementRegex "a.*b") (storedList ["ax", "yb"]) ∧
      ∀ v ∈ ["ax", "yb"], ¬ Finds (elementRegex "a.*b") (storedList [v]) := by
  have hread : (Anchored.of "a.*b").branches? = some [[.char 'a', .star .any, .char 'b']] := by
    decide +kernel
  have hfree : ∀ b ∈ [[Regex.char 'a', .star .any, .char 'b']],
      ∀ r ∈ b, r.anchorFree = true := by decide
  have hstrands : (Anchored.of "a.*b").elementStrands [[.char 'a', .star .any, .char 'b']] =
      [⟨true, [choice [[.char 'a', .star .any, .char 'b']]], true⟩] := by decide
  have hword : ∀ w, (sequence [choice [[.char 'a', .star .any, .char 'b']]]).HasWord w ↔
      ∃ u, w = 'a' :: u ++ ['b'] := by
    intro w
    rw [HasWord, matches_sequence_singleton_iff, matches_choice_iff, List.exists_mem_cons_iff]
    simp only [List.not_mem_nil, false_and, exists_false, or_false]
    refine (hasWord_sequence_char_cons_iff (by decide)).trans ⟨?_, ?_⟩
    · rintro ⟨_, rfl, hrest⟩
      obtain ⟨u, v, rfl, hv⟩ := (hasWord_sequence_star_any_cons_iff (by decide)).1 hrest
      exact ⟨u, congrArg ('a' :: u ++ ·) ((hasWord_sequence_chars_iff ['b']).1 hv)⟩
    · rintro ⟨u, rfl⟩
      exact ⟨u ++ ['b'], rfl, (hasWord_sequence_star_any_cons_iff (by decide)).2
        ⟨u, ['b'], rfl, (hasWord_sequence_chars_iff ['b']).2 rfl⟩⟩
  refine ⟨?_, fun v hv hfound => ?_⟩
  · rw [finds_elementRegex_iff hread hfree, hstrands]
    exact ⟨_, List.mem_cons_self, ['[', '"'], "ax\",\"yb".toList, ['"', ']'], .inl rfl,
      (hword _).2 ⟨"x\",\"y".toList, rfl⟩, .inr rfl, by decide +kernel⟩
  · rw [finds_elementRegex_iff hread hfree, hstrands] at hfound
    obtain ⟨s, hs, m, w, n, -, hw, -, hinfix⟩ := hfound
    rw [List.mem_singleton] at hs
    subst hs
    obtain ⟨u, rfl⟩ := (hword w).1 hw
    have ha : 'a' ∈ (storedList [v]).toList := hinfix.subset (by simp)
    have hb : 'b' ∈ (storedList [v]).toList := hinfix.subset (by simp)
    have hone : ∀ v ∈ ["ax", "yb"],
        ¬ ('a' ∈ (storedList [v]).toList ∧ 'b' ∈ (storedList [v]).toList) := by decide +kernel
    exact hone v hv ⟨ha, hb⟩

end Regex

end SearchFilter
