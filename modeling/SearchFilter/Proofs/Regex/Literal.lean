import Mathlib.Data.List.TakeWhile
import SearchFilter.Proofs.Regex.Isolation

/-!
# Values as regular expressions for elements

A text without signs stands for itself in a regular expression. The one for elements finds such a
text where a mark is next to it. A comma or a bracket at the end of a value and the quote after it
look like the mark of a start, but what follows them is a comma or a bracket. So a text without any
of these is found only at the start of a value, and to its end if it is bound to the end.

Main statement: `finds_elementRegex_iff_mem`.
-/

namespace SearchFilter

/-! ## Words next to marks -/

/-- The characters that lists are made up with. -/
def listSigns : List Char := ['"', ',', '[', ']']

section
variable {v w m n rest before : List Char} {closes : Bool}

/-- The text of a single value has one quote before the value and one after it. -/
theorem eq_of_quote (hv : '"' ∉ v) (h : before ++ '"' :: rest = '[' :: '"' :: (v ++ ['"', ']'])) :
    rest = v ++ ['"', ']'] ∨ rest = [']'] := by
  match before, h with
  | [], h => simp at h
  | [_], h => exact .inl (by simpa using (List.cons.inj h).2)
  | _ :: _ :: inner, h =>
    obtain ⟨-, -, h⟩ : _ ∧ _ ∧ inner ++ '"' :: rest = v ++ '"' :: [']'] := by simpa using h
    rcases append_eq_append_cons h with ⟨z, -, hz⟩ | ⟨z, rfl, hz⟩
    · have hquote : '"' ∈ [']'] := hz ▸ List.mem_append_right z List.mem_cons_self
      exact absurd hquote (by decide)
    · cases z with
      | nil => exact .inr (List.cons.inj hz).2
      | cons d z =>
        obtain ⟨rfl, -⟩ := List.cons.inj hz
        exact absurd (List.mem_append_right inner List.mem_cons_self) hv

theorem Opens.eq_pair (hm : Opens true m) : ∃ c, m = [c, '"'] := by
  rcases hm with rfl | rfl
  · exact ⟨'[', rfl⟩
  · exact ⟨',', rfl⟩

theorem Closes.eq_cons (hn : Closes true n) : ∃ c, n = ['"', c] := by
  rcases hn with rfl | rfl
  · exact ⟨',', rfl⟩
  · exact ⟨']', rfl⟩

/-- A word is the start of a value or, if it is bound to the end, the value. -/
def Covers (closes : Bool) (w v : List Char) : Prop := if closes then w = v else w <+: v

/-- A word next to the mark of a start is at the start of the value. -/
theorem covers_of_infix_single {v : String} (hv : '"' ∉ v.toList) (hne : w ≠ [])
    (hw : ∀ c ∈ w, c ∉ listSigns) (hm : Opens true m) (hn : Closes closes n)
    (h : m ++ w ++ n <:+: (storedList [v]).toList) : Covers closes w v.toList := by
  have hquote : '"' ∉ w := fun hmem => hw _ hmem (by decide)
  obtain ⟨c, rfl⟩ := hm.eq_pair
  obtain ⟨before, after, heq⟩ := h
  have hsingle : (storedList [v]).toList = '[' :: '"' :: (v.toList ++ ['"', ']']) := by
    rw [toList_storedList]
    simp [listed]
  have hmark : (before ++ [c]) ++ '"' :: (w ++ (n ++ after)) =
      '[' :: '"' :: (v.toList ++ ['"', ']']) := by
    rw [← hsingle, ← heq]
    simp
  rcases eq_of_quote hv hmark with hstart | hend
  · rcases append_eq_append_cons hstart with ⟨z, rfl, -⟩ | ⟨z, hz, hrest⟩
    · exact absurd (List.mem_append_right _ List.mem_cons_self) hquote
    · cases closes with
      | false => exact ⟨z, hz.symm⟩
      | true =>
        obtain ⟨d, rfl⟩ := hn.eq_cons
        cases z with
        | nil => exact (hz.trans (List.append_nil w)).symm
        | cons x z =>
          obtain ⟨rfl, -⟩ := List.cons.inj hrest
          exact absurd (hz ▸ List.mem_append_right w List.mem_cons_self) hv
  · -- after the last quote there is only a bracket
    obtain ⟨x, w, rfl⟩ := List.exists_cons_of_ne_nil hne
    obtain ⟨rfl, -⟩ := List.cons.inj hend
    exact absurd (by decide) (hw ']' List.mem_cons_self)

/-- Every value stands between two marks, also in a list that goes on from a comma. -/
theorem exists_infix_of_mem {values : List String} {v : String} (hv : v ∈ values) {sign : Char}
    (hsign : sign = '[' ∨ sign = ',') :
    ∃ m n, Opens true m ∧ Closes true n ∧
      m ++ v.toList ++ n <:+: sign :: listed values ++ [']'] := by
  have hopens : Opens true [sign, '"'] := by
    rcases hsign with rfl | rfl
    · exact .inl rfl
    · exact .inr rfl
  induction values generalizing sign with
  | nil => cases hv
  | cons first values ih =>
    rcases List.mem_cons.1 hv with rfl | hv
    · cases values with
      | nil => exact ⟨_, ['"', ']'], hopens, .inr rfl, [], [], by simp [listed]⟩
      | cons second values =>
        rw [listed_cons_cons]
        exact ⟨_, ['"', ','], hopens, .inl rfl, [], listed (second :: values) ++ [']'], by simp⟩
    · cases values with
      | nil => cases hv
      | cons second values =>
        obtain ⟨m, n, hm, hn, hfound⟩ := ih hv (.inr rfl) (.inr rfl)
        refine ⟨m, n, hm, hn, hfound.trans ?_⟩
        rw [listed_cons_cons]
        exact ⟨sign :: '"' :: first.toList ++ ['"'], [], by simp⟩

/-- A word without the signs of lists is found next to the mark of a start where a value starts with
it, and between two marks where it is a value. -/
theorem exists_infix_iff {values : List String} (hvalues : ∀ v ∈ values, '"' ∉ v.toList)
    (hne : w ≠ []) (hw : ∀ c ∈ w, c ∉ listSigns) :
    (∃ m n, Opens true m ∧ Closes closes n ∧ m ++ w ++ n <:+: (storedList values).toList) ↔
      ∃ v ∈ values, Covers closes w v.toList := by
  constructor
  · rintro ⟨m, n, hm, hn, h⟩
    have hquote : '"' ∉ w := fun hmem => hw _ hmem (by decide)
    have hcomma : w ≠ [','] := fun heq => hw ',' (heq ▸ List.mem_cons_self) (by decide)
    have hsome : values ≠ [] := by
      rintro rfl
      have hmem : '"' ∈ m ++ w ++ n := by
        obtain ⟨c, rfl⟩ := hm.eq_pair
        simp
      exact absurd (h.subset hmem) (by decide)
    obtain ⟨v, hv, m', n', hm', hn', hsingle⟩ :=
      (staysInside_of_not_mem hquote hcomma).exists_single hm hn hsome h
    exact ⟨v, hv, covers_of_infix_single (hvalues v hv) hne hw hm' hn' hsingle⟩
  · rintro ⟨v, hv, hcovers⟩
    obtain ⟨m, n, hm, hn, hfound⟩ := exists_infix_of_mem hv (.inl rfl)
    rw [← toList_storedList] at hfound
    cases closes with
    | true =>
      obtain rfl : w = v.toList := hcovers
      exact ⟨m, n, hm, hn, hfound⟩
    | false =>
      obtain ⟨z, hz⟩ : w <+: v.toList := hcovers
      refine ⟨m, [], hm, rfl, List.IsInfix.trans ⟨[], z ++ n, ?_⟩ hfound⟩
      simp [← hz]

end

namespace Regex

/-! ## Texts that stand for themselves -/

/-- The characters with a meaning of their own in regular expressions. -/
def metacharacters : List Char := ['\\', '(', ')', '|', '*', '.', '^', '$', '[', '{', '+', '?']

theorem signOf_of_not_mem {c : Char} (h : c ∉ metacharacters) : signOf c = .item (.char c) := by
  unfold signOf
  split
  case h_13 => rfl
  all_goals exact absurd (by decide) h

variable {cs : List Char}

theorem run_literals (h : ∀ c ∈ cs, c ∉ metacharacters) (f : Frame) (fs : List Frame) :
    Reading.run ⟨false, f :: fs⟩ cs = some ⟨false, ⟨f.done, f.items ++ cs.map .char⟩ :: fs⟩ := by
  induction cs generalizing f with
  | nil =>
    rw [List.map_nil, List.append_nil]
    rfl
  | cons c cs ih =>
    obtain ⟨hc, hcs⟩ := List.forall_mem_cons.1 h
    have hstep : Reading.step ⟨false, f :: fs⟩ c = some ⟨false, f.push (.char c) :: fs⟩ :=
      congrArg (Reading.sign · (f :: fs)) (signOf_of_not_mem hc)
    refine Option.bind_eq_some_iff.2 ⟨_, hstep, (ih hcs (f.push (.char c))).trans ?_⟩
    rw [Frame.push, List.append_assoc, List.map_cons]
    rfl

/-- A text without metacharacters is read as a single alternative that is the text. -/
theorem branches?_literals (h : ∀ c ∈ cs, c ∉ metacharacters) :
    branches? cs = some [cs.map .char] :=
  branches?_eq_some_iff.2 ⟨_, run_literals h .start [], rfl⟩

/-- A text with anchors on its sides. -/
def withAnchors (fromStart toEnd : Bool) (w : String) : String :=
  (if fromStart then "^" else "") ++ w ++ if toEnd then "$" else ""

theorem takeStartAnchor_of_not_mem {rest : List Char} (hne : cs ≠ []) (h : '^' ∉ cs) :
    takeStartAnchor (cs ++ rest) = (false, cs ++ rest) := by
  obtain ⟨c, cs, rfl⟩ := List.exists_cons_of_ne_nil hne
  unfold takeStartAnchor
  split
  · next heq =>
    obtain ⟨rfl, -⟩ := List.cons.inj heq
    exact absurd List.mem_cons_self h
  · rfl

theorem takeEndAnchor_of_not_mem (hescape : '\\' ∉ cs) (hanchor : '$' ∉ cs) (toEnd : Bool) :
    takeEndAnchor (cs ++ if toEnd then ['$'] else []) = (toEnd, cs) := by
  have hends : endsInEscape cs = false := by
    have hnone : cs.reverse.takeWhile (· == '\\') = [] := by
      rw [List.takeWhile_eq_nil_iff]
      intro hlen heq
      exact hescape (List.mem_reverse.1 (beq_iff_eq.1 heq ▸ List.get_mem _ _))
    rw [endsInEscape, hnone]
    rfl
  unfold takeEndAnchor
  cases toEnd with
  | true => simp [hends]
  | false =>
    rw [if_neg]
    · simp
    · rintro ⟨hlast, -⟩
      exact hanchor (by simpa using List.mem_of_getLast? hlast)

/-- The anchors around a text without metacharacters are taken off again. -/
theorem Anchored.of_withAnchors {w : String} (hne : w.toList ≠ [])
    (h : ∀ c ∈ w.toList, c ∉ metacharacters) (fromStart toEnd : Bool) :
    Anchored.of (withAnchors fromStart toEnd w) = ⟨fromStart, w.toList, toEnd⟩ := by
  have hnot : ∀ c ∈ metacharacters, c ∉ w.toList := fun c hc hmem => h c hmem hc
  have htext : (withAnchors fromStart toEnd w).toList =
      (if fromStart then ['^'] else []) ++ (w.toList ++ if toEnd then ['$'] else []) := by
    cases fromStart <;> cases toEnd <;> simp [withAnchors]
  have hstart : takeStartAnchor (withAnchors fromStart toEnd w).toList =
      (fromStart, w.toList ++ if toEnd then ['$'] else []) := by
    rw [htext]
    cases fromStart with
    | true => rfl
    | false => exact @takeStartAnchor_of_not_mem w.toList _ hne (hnot '^' (by decide))
  rw [Anchored.of, hstart]
  simp only [takeEndAnchor_of_not_mem (hnot '\\' (by decide)) (hnot '$' (by decide))]

/-! ## Values in lists -/

/-- Only with an anchor at the start and none at the end a text is not bound to the end. -/
theorem finds_elementRegex_withAnchors_iff {w text : String} (hne : w.toList ≠ [])
    (h : ∀ c ∈ w.toList, c ∉ metacharacters) (fromStart toEnd : Bool) :
    Finds (elementRegex (withAnchors fromStart toEnd w)) text ↔
      ∃ m n, Opens true m ∧ Closes (!fromStart || toEnd) n ∧
        m ++ w.toList ++ n <:+: text.toList := by
  have hanchors := Anchored.of_withAnchors hne h fromStart toEnd
  have hread : (Anchored.of (withAnchors fromStart toEnd w)).branches? =
      some [w.toList.map .char] := by
    rw [hanchors]
    exact branches?_literals h
  have hfree : ∀ b ∈ [w.toList.map Regex.char], ∀ r ∈ b, r.anchorFree = true :=
    List.forall_mem_singleton.2 (List.forall_mem_map.2 fun _ _ => rfl)
  rw [finds_elementRegex_iff hread hfree, hanchors]
  cases fromStart with
  | true =>
    simp [Anchored.elementStrands, strands, hasWord_sequence_chars_iff]
  | false =>
    have hword : ∀ x, (sequence [choice [w.toList.map .char]]).HasWord x ↔ x = w.toList := by
      intro x
      rw [HasWord, matches_sequence_singleton_iff, matches_choice_iff, List.exists_mem_cons_iff]
      simp only [List.not_mem_nil, false_and, exists_false, or_false]
      exact hasWord_sequence_chars_iff w.toList
    simp [Anchored.elementStrands, strands, hword]

/-- A text without metacharacters and without the signs of lists is found in a list, by itself or
with an anchor at its end, where it is one of the values. With an anchor at its start only, it is
found where a value starts with it. -/
theorem finds_elementRegex_iff_mem {w : String} {values : List String} (hne : w ≠ "")
    (hplain : ∀ c ∈ w.toList, c ∉ metacharacters ∧ c ∉ listSigns)
    (hvalues : ∀ v ∈ values, '"' ∉ v.toList) :
    (Finds (elementRegex w) (storedList values) ↔ w ∈ values) ∧
      (Finds (elementRegex (w ++ "$")) (storedList values) ↔ w ∈ values) ∧
      (Finds (elementRegex ("^" ++ w ++ "$")) (storedList values) ↔ w ∈ values) ∧
      (Finds (elementRegex ("^" ++ w)) (storedList values) ↔
        ∃ v ∈ values, w.toList <+: v.toList) := by
  have hchars : w.toList ≠ [] := fun h => hne (String.toList_eq_nil_iff.1 h)
  have hfinds : ∀ fromStart toEnd,
      Finds (elementRegex (withAnchors fromStart toEnd w)) (storedList values) ↔
        ∃ v ∈ values, Covers (!fromStart || toEnd) w.toList v.toList := fun fromStart toEnd =>
    (finds_elementRegex_withAnchors_iff hchars (fun c hc => (hplain c hc).1) fromStart toEnd).trans
      (exists_infix_iff hvalues hchars fun c hc => (hplain c hc).2)
  have hmem : (∃ v ∈ values, Covers true w.toList v.toList) ↔ w ∈ values := by
    simp [Covers, String.toList_inj]
  have hbound : ∀ fromStart toEnd, (!fromStart || toEnd) = true →
      (Finds (elementRegex (withAnchors fromStart toEnd w)) (storedList values) ↔ w ∈ values) := by
    intro fromStart toEnd hclosed
    rw [hfinds, hclosed, hmem]
  have hnone : withAnchors false false w = w := by simp [withAnchors]
  have hend : withAnchors false true w = w ++ "$" := by simp [withAnchors]
  have hboth : withAnchors true true w = "^" ++ w ++ "$" := by simp [withAnchors]
  have hstart : withAnchors true false w = "^" ++ w := by simp [withAnchors]
  refine ⟨?_, ?_, ?_, ?_⟩
  · simpa only [hnone] using hbound false false rfl
  · simpa only [hend] using hbound false true rfl
  · simpa only [hboth] using hbound true true rfl
  · rw [← hstart]
    exact hfinds true false

/-- No value is `b`, though a bracket comes before one and a comma after another: only the start of
a value is found. -/
theorem finds_elementRegex_iff_mem_comma :
    ¬ Finds (elementRegex "b") (storedList ["a,", "[b", "b,"]) ∧
      ¬ Finds (elementRegex "b$") (storedList ["a,", "[b", "b,"]) ∧
      ¬ Finds (elementRegex "^b$") (storedList ["a,", "[b", "b,"]) ∧
      Finds (elementRegex "^b") (storedList ["a,", "[b", "b,"]) := by
  have hletter : ∀ c ∈ "b".toList, c ∉ metacharacters ∧ c ∉ listSigns := by
    have hlist : "b".toList = ['b'] := by decide
    rw [hlist, List.forall_mem_singleton]
    decide
  obtain ⟨hnone, hend, hboth, hstart⟩ :=
    @finds_elementRegex_iff_mem "b" ["a,", "[b", "b,"] (by decide) hletter (by decide)
  have hb : "b" ∉ ["a,", "[b", "b,"] := by decide
  exact ⟨hb ∘ hnone.1, hb ∘ hend.1, hb ∘ hboth.1, hstart.2 ⟨"b,", by decide, by decide⟩⟩

end Regex

end SearchFilter
