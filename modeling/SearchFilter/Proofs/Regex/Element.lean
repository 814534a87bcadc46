import SearchFilter.Pattern
import SearchFilter.Proofs.Regex.Reading

/-!
# How regular expressions for elements are read

An anchor at the start of a regular expression belongs to its first alternative, and one at the end
to its last. So do the marks that take their places in the regular expression for an element: the
alternatives between the first and the last are bound to no mark. Without an anchor at the start the
marks are around all alternatives.

Main statements: `branches?_around`, and from it `branches?_of_anchored`, for a regular expression
as it is given, and `branches?_elementRegex`.
-/

namespace SearchFilter

namespace Regex

/-! ## Parts of regular expressions -/

/-- The regular expression of what stands before an element. -/
def opening : Regex := choice [[.char '[', .char '"'], [.char ',', .char '"']]

/-- The regular expression of what stands after an element. -/
def closing : Regex := choice [[.char '"', .char ','], [.char '"', .char ']']]

/-- A text is read as one item wherever an item may stand. -/
def Reads (s : List Char) (r : Regex) : Prop :=
  ∀ f fs, Reading.run ⟨false, f :: fs⟩ s = some ⟨false, f.push r :: fs⟩

theorem reads_elementStart : Reads elementStart.toList opening := by
  have hbracket : isAlphanumeric '[' = false := by decide +kernel
  have htext : elementStart.toList = ['(', '\\'] ++ ('[' :: ['"', '|', ',', '"', ')']) := by decide
  intro f fs
  have hopened : Reading.run ⟨false, f :: fs⟩ ['(', '\\'] = some ⟨true, .start :: f :: fs⟩ := rfl
  rw [htext, Reading.run_append, hopened, Option.bind_some, Reading.run, List.foldlM_cons,
    Reading.step_of_escaped hbracket]
  rfl

theorem reads_elementEnd : Reads elementEnd.toList closing := by
  have hbracket : isAlphanumeric ']' = false := by decide +kernel
  have htext : elementEnd.toList = ['(', '"', ',', '|', '"', '\\'] ++ (']' :: [')']) := by decide
  intro f fs
  have hopened : Reading.run ⟨false, f :: fs⟩ ['(', '"', ',', '|', '"', '\\'] =
      some ⟨true, ⟨[[.char '"', .char ',']], [.char '"']⟩ :: f :: fs⟩ := rfl
  rw [htext, Reading.run_append, hopened, Option.bind_some, Reading.run, List.foldlM_cons,
    Reading.step_of_escaped hbracket]
  rfl

theorem reads_group {s : List Char} {bs : List (List Regex)} (h : branches? s = some bs) :
    Reads ('(' :: s ++ [')']) (choice bs) := by
  obtain ⟨f, hrun, rfl⟩ := branches?_eq_some_iff.1 h
  intro outer fs
  have hbody : Reading.run ⟨false, .start :: outer :: fs⟩ s = some ⟨false, f :: outer :: fs⟩ :=
    Reading.run_onBottom .id (outer :: fs) hrun
  rw [List.cons_append, Reading.run, List.foldlM_cons]
  refine (Reading.run_append _ s [')']).trans ?_
  rw [hbody]
  rfl

/-! ## What stands around alternatives -/

/-- Puts an item before the first alternative. -/
def Frame.prefixed (r : Regex) : Frame → Frame
  | ⟨[], items⟩ => ⟨[], r :: items⟩
  | ⟨b :: bs, items⟩ => ⟨(r :: b) :: bs, items⟩

theorem Frame.transparent_prefixed (r : Regex) : Transparent (prefixed r) where
  push f s := by
    obtain ⟨_ | ⟨b, bs⟩, items⟩ := f <;> rfl
  bar f := by
    obtain ⟨_ | ⟨b, bs⟩, items⟩ := f <;> rfl
  star? f f' h := by
    obtain ⟨before, s, hitems, hs, rfl⟩ := star?_eq_some_iff.1 h
    obtain ⟨_ | ⟨b, bs⟩, items⟩ := f
    · exact star?_eq_some_iff.2 ⟨r :: before, s, congrArg (r :: ·) hitems, hs, rfl⟩
    · exact star?_eq_some_iff.2 ⟨before, s, hitems, hs, rfl⟩

/-- An alternative, and whether something is bound to its start and to its end. -/
structure Strand where
  opens : Bool
  items : List Regex
  closes : Bool
  deriving DecidableEq, Repr

/-- The items of an alternative with what is bound to it. -/
def Strand.around (start finish : Regex) (s : Strand) : List Regex :=
  (if s.opens then [start] else []) ++ s.items ++ if s.closes then [finish] else []

/-- The alternatives, when something may stand before the first and after the last. -/
def strands (opens closes : Bool) : List (List Regex) → List Strand
  | [] => []
  | b :: bs => ⟨opens, b, closes && bs.isEmpty⟩ :: strands false closes bs

theorem strands_append_singleton (closes : Bool) (bs : List (List Regex)) (b : List Regex) :
    strands false closes (bs ++ [b]) = bs.map (⟨false, ·, false⟩) ++ [⟨false, b, closes⟩] := by
  induction bs with
  | nil => simp [strands]
  | cons b' bs ih => simp [strands, ih]

theorem items_of_mem_strands {opens closes : Bool} {bs : List (List Regex)} {s : Strand}
    (h : s ∈ strands opens closes bs) : s.items ∈ bs := by
  induction bs generalizing opens with
  | nil => cases h
  | cons b bs ih =>
    rcases List.mem_cons.1 h with rfl | h
    · exact List.mem_cons_self
    · exact List.mem_cons_of_mem b (ih h)

/-- What is bound to the start and the end of a group goes to its first and last alternative. -/
theorem Frame.branches_around (f : Frame) (start finish : Regex) (opens closes : Bool) :
    let g := if opens then f.prefixed start else f
    (if closes then g.push finish else g).branches =
      (strands opens closes f.branches).map (Strand.around start finish) := by
  have hplain : ∀ b : List Regex, Strand.around start finish ⟨false, b, false⟩ = b := by
    simp [Strand.around]
  obtain ⟨_ | ⟨b, bs⟩, items⟩ := f
  · cases opens <;> cases closes <;>
      simp [branches, prefixed, push, strands, Strand.around]
  · have hdone : (bs.map (⟨false, ·, false⟩)).map (Strand.around start finish) = bs := by
      rw [List.map_map]
      exact (List.map_congr_left fun b _ => hplain b).trans (List.map_id _)
    rw [branches, List.cons_append, strands, strands_append_singleton, List.map_cons,
      List.map_append, hdone]
    cases opens <;> cases closes <;> simp [branches, prefixed, push, Strand.around]

/-- What is written before and after alternatives belongs to the first and the last of them. -/
theorem branches?_around {before s after : List Char} {start finish : Regex}
    (hbefore : Reads before start) (hafter : Reads after finish) {bs : List (List Regex)}
    (h : branches? s = some bs) (opens closes : Bool) :
    branches? ((if opens then before else []) ++ s ++ if closes then after else []) =
      some ((strands opens closes bs).map (Strand.around start finish)) := by
  obtain ⟨f, hrun, rfl⟩ := branches?_eq_some_iff.1 h
  have hfirst : Reading.start.run ((if opens then before else []) ++ s) =
      some ⟨false, [if opens then f.prefixed start else f]⟩ := by
    rw [Reading.run_append]
    cases opens with
    | false => exact hrun
    | true =>
      refine (congrArg (Option.bind · _) (hbefore .start [])).trans ?_
      exact Reading.run_onBottom (Frame.transparent_prefixed start) [] hrun
  refine branches?_eq_some_iff.2 ⟨_, ?_, f.branches_around start finish opens closes⟩
  rw [Reading.run_append, hfirst]
  cases closes with
  | false => rfl
  | true => exact hafter _ []

/-! ## Regular expressions with anchors -/

/-- A regular expression taken apart at its outer anchors. -/
structure Anchored where
  fromStart : Bool
  body : List Char
  toEnd : Bool

namespace Anchored

/-- Takes the anchors off a regular expression. -/
def of (pattern : String) : Anchored where
  fromStart := (takeStartAnchor pattern.toList).1
  body := (takeEndAnchor (takeStartAnchor pattern.toList).2).2
  toEnd := (takeEndAnchor (takeStartAnchor pattern.toList).2).1

/-- The alternatives between the anchors. -/
def branches? (a : Anchored) : Option (List (List Regex)) := Regex.branches? a.body

/-- The alternatives in the regular expression for an element, and which of them are bound to its
marks. -/
def elementStrands (a : Anchored) (bs : List (List Regex)) : List Strand :=
  if a.fromStart then strands true a.toEnd bs else strands true true [[choice bs]]

end Anchored

theorem items_of_mem_elementStrands {a : Anchored} {bs : List (List Regex)} {s : Strand}
    (h : s ∈ a.elementStrands bs) : s.items ∈ bs ∨ s.items = [choice bs] := by
  unfold Anchored.elementStrands at h
  split at h
  · exact .inl (items_of_mem_strands h)
  · exact .inr (List.mem_singleton.1 (items_of_mem_strands h))

theorem takeStartAnchor_append (cs : List Char) :
    (if (takeStartAnchor cs).1 then ['^'] else []) ++ (takeStartAnchor cs).2 = cs := by
  unfold takeStartAnchor
  split <;> rfl

theorem takeEndAnchor_append (cs : List Char) :
    (takeEndAnchor cs).2 ++ (if (takeEndAnchor cs).1 then ['$'] else []) = cs := by
  unfold takeEndAnchor
  split
  · next h => exact List.dropLast_append_getLast? _ h.1
  · exact List.append_nil cs

theorem toList_elementRegex (p : String) :
    (elementRegex p).toList =
      if (Anchored.of p).fromStart then
        elementStart.toList ++ (Anchored.of p).body ++
          if (Anchored.of p).toEnd then elementEnd.toList else []
      else elementStart.toList ++ ('(' :: (Anchored.of p).body ++ [')']) ++ elementEnd.toList := by
  unfold elementRegex Anchored.of
  dsimp only
  split
  · split <;> simp
  · simp

variable {p : String} {bs : List (List Regex)}

/-- A regular expression has anchors at its first and at its last alternative. -/
theorem branches?_of_anchored (h : (Anchored.of p).branches? = some bs) :
    branches? p.toList = some ((strands (Anchored.of p).fromStart (Anchored.of p).toEnd bs).map
      (Strand.around .atStart .atEnd)) := by
  have htext : p.toList = (if (Anchored.of p).fromStart then ['^'] else []) ++
      (Anchored.of p).body ++ if (Anchored.of p).toEnd then ['$'] else [] := by
    rw [List.append_assoc]
    exact (takeStartAnchor_append p.toList).symm.trans
      (congrArg _ (takeEndAnchor_append (takeStartAnchor p.toList).2).symm)
  rw [htext]
  exact branches?_around (fun _ _ => rfl) (fun _ _ => rfl) h _ _

/-- The regular expression for an element has marks in the places of anchors, or around all its
alternatives. -/
theorem branches?_elementRegex (h : (Anchored.of p).branches? = some bs) :
    branches? (elementRegex p).toList =
      some (((Anchored.of p).elementStrands bs).map (Strand.around opening closing)) := by
  rw [toList_elementRegex, Anchored.elementStrands]
  split
  · exact branches?_around reads_elementStart reads_elementEnd h true _
  · have hgroup : branches? ('(' :: (Anchored.of p).body ++ [')']) = some [[choice bs]] :=
      branches?_eq_some_iff.2 ⟨_, reads_group h .start [], rfl⟩
    exact branches?_around reads_elementStart reads_elementEnd hgroup true true

end Regex

end SearchFilter
