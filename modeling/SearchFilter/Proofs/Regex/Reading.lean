import Mathlib.Data.List.Basic
import SearchFilter.Proofs.Regex.Matching
import SearchFilter.Text.Alphanumeric

/-!
# Reading regular expressions

The texts read here are those over literals, the dot, the star, groups, alternatives and anchors;
every database takes them to mean the same. They are read from left to right, with one frame for
every group that is open. A text that can be read alone is read alike inside more groups, and after
the start of its first alternative.

Main statement: `run_onBottom`.
-/

namespace SearchFilter

namespace Regex

/-! ## Signs -/

/-- What a character means in a regular expression. -/
inductive Sign where
  | escape
  | opening
  | closing
  | bar
  | star
  | item (r : Regex)
  /-- The start of a construct that is not read here. -/
  | foreign

/-- The meaning of a character with no backslash before it. -/
def signOf (c : Char) : Sign :=
  match c with
  | '\\' => .escape
  | '(' => .opening
  | ')' => .closing
  | '|' => .bar
  | '*' => .star
  | '.' => .item .any
  | '^' => .item .atStart
  | '$' => .item .atEnd
  | '[' | '{' | '+' | '?' => .foreign
  | c => .item (.char c)

/-- Whether a star may follow an expression. -/
def repeatable : Regex → Bool
  | star _ | atStart | atEnd => false
  | _ => true

/-! ## Frames -/

/-- What has been read of a group: whole alternatives, and the items of the current one. -/
structure Frame where
  done : List (List Regex)
  items : List Regex
  deriving DecidableEq, Repr

namespace Frame

/-- Nothing has been read. -/
def start : Frame := ⟨[], []⟩

def push (f : Frame) (r : Regex) : Frame := { f with items := f.items ++ [r] }

/-- Ends an alternative. -/
def bar (f : Frame) : Frame := ⟨f.done ++ [f.items], []⟩

/-- Repeats the last item, if it may be repeated. -/
def star? (f : Frame) : Option Frame :=
  match f.items.reverse with
  | [] => none
  | r :: before =>
    if r.repeatable then some { f with items := before.reverse ++ [.star r] } else none

/-- All alternatives. -/
def branches (f : Frame) : List (List Regex) := f.done ++ [f.items]

theorem star?_append_singleton (done : List (List Regex)) (before : List Regex) (r : Regex) :
    (Frame.mk done (before ++ [r])).star? =
      if r.repeatable then some ⟨done, before ++ [.star r]⟩ else none := by
  simp only [star?, List.reverse_append, List.reverse_singleton, List.singleton_append,
    List.reverse_reverse]

theorem star?_eq_some_iff {f f' : Frame} :
    f.star? = some f' ↔ ∃ before r, f.items = before ++ [r] ∧ r.repeatable = true ∧
      f' = { f with items := before ++ [.star r] } := by
  obtain ⟨done, items⟩ := f
  constructor
  · intro h
    rcases List.eq_nil_or_concat items with rfl | ⟨before, r, hitems⟩
    · cases h
    · rw [hitems, List.concat_eq_append] at h ⊢
      rw [star?_append_singleton] at h
      split at h
      · next hr =>
        cases h
        exact ⟨before, r, rfl, hr, rfl⟩
      · cases h
  · rintro ⟨before, r, hitems, hr, rfl⟩
    obtain rfl : items = before ++ [r] := hitems
    rw [star?_append_singleton]
    exact if_pos hr

end Frame

/-! ## Steps -/

/-- What has been read of a text: whether a backslash came last, and the frames of the groups that
are open, the innermost first. -/
structure Reading where
  escaped : Bool
  frames : List Frame
  deriving DecidableEq, Repr

namespace Reading

/-- Nothing has been read. -/
def start : Reading := ⟨false, [.start]⟩

/-- Reads a sign. -/
def sign : Sign → List Frame → Option Reading
  | .escape, fs => some ⟨true, fs⟩
  | .opening, f :: fs => some ⟨false, .start :: f :: fs⟩
  | .closing, f :: outer :: fs => some ⟨false, outer.push (choice f.branches) :: fs⟩
  | .bar, f :: fs => some ⟨false, f.bar :: fs⟩
  | .star, f :: fs => f.star?.map fun f => ⟨false, f :: fs⟩
  | .item r, f :: fs => some ⟨false, f.push r :: fs⟩
  | _, _ => none

/-- Reads a character. A backslash takes the meaning from a sign and has one of its own before a
letter or a digit, which is not read here. -/
def step (r : Reading) (c : Char) : Option Reading :=
  if r.escaped then
    if isAlphanumeric c then none else sign (.item (.char c)) r.frames
  else sign (signOf c) r.frames

/-- A character that is no letter and no digit stands for itself after a backslash. -/
theorem step_of_escaped {c : Char} (h : isAlphanumeric c = false) (fs : List Frame) :
    step ⟨true, fs⟩ c = sign (.item (.char c)) fs :=
  if_neg (ne_true_of_eq_false h)

/-- Reads a text. -/
def run (r : Reading) (s : List Char) : Option Reading := s.foldlM step r

theorem run_append (r : Reading) (s t : List Char) :
    r.run (s ++ t) = (r.run s).bind fun r => r.run t :=
  List.foldlM_append

/-! ## Readings with more around them -/

/-- Frames of which the outermost is changed. -/
def onLast (g : Frame → Frame) : List Frame → List Frame
  | [] => []
  | f :: fs => (if fs.isEmpty then g f else f) :: onLast g fs

/-- A reading with a change to its outermost frame and with more frames around it. -/
def onBottom (g : Frame → Frame) (more : List Frame) (r : Reading) : Reading :=
  ⟨r.escaped, onLast g r.frames ++ more⟩

end Reading

/-- A change of a frame that goes unnoticed by what is read next. -/
structure Frame.Transparent (g : Frame → Frame) : Prop where
  push : ∀ f r, g (f.push r) = (g f).push r
  bar : ∀ f, g f.bar = (g f).bar
  star? : ∀ f f', f.star? = some f' → (g f).star? = some (g f')

theorem Frame.Transparent.id : Transparent (fun f => f) :=
  ⟨fun _ _ => rfl, fun _ => rfl, fun _ _ h => h⟩

namespace Reading

variable {g : Frame → Frame} {r r' : Reading}

theorem transparent_ite (hg : Frame.Transparent g) (b : Bool) :
    Frame.Transparent fun f => if b then g f else f := by
  cases b with
  | false => exact .id
  | true => exact hg

theorem sign_onBottom (hg : Frame.Transparent g) (more : List Frame) {s : Sign} {fs : List Frame}
    (h : sign s fs = some r') :
    sign s (onLast g fs ++ more) = some (r'.onBottom g more) := by
  cases s with
  | escape =>
    cases h
    rfl
  | opening =>
    match fs, h with
    | f :: fs, h =>
      cases h
      rfl
  | closing =>
    match fs, h with
    | f :: outer :: fs, h =>
      cases h
      have hpush := (transparent_ite hg fs.isEmpty).push outer (choice f.branches)
      exact congrArg (fun f => some (Reading.mk false (f :: (onLast g fs ++ more)))) hpush.symm
  | bar =>
    match fs, h with
    | f :: fs, h =>
      cases h
      have hbar := (transparent_ite hg fs.isEmpty).bar f
      exact congrArg (fun f => some (Reading.mk false (f :: (onLast g fs ++ more)))) hbar.symm
  | star =>
    match fs, h with
    | f :: fs, h =>
      obtain ⟨f', hf, rfl⟩ := Option.map_eq_some_iff.1 h
      have hstar := (transparent_ite hg fs.isEmpty).star? f f' hf
      exact congrArg (Option.map fun f => Reading.mk false (f :: (onLast g fs ++ more))) hstar
  | item r =>
    match fs, h with
    | f :: fs, h =>
      cases h
      have hpush := (transparent_ite hg fs.isEmpty).push f r
      exact congrArg (fun f => some (Reading.mk false (f :: (onLast g fs ++ more)))) hpush.symm
  | foreign => cases h

theorem step_onBottom (hg : Frame.Transparent g) (more : List Frame) {c : Char}
    (h : r.step c = some r') : (r.onBottom g more).step c = some (r'.onBottom g more) := by
  unfold step at h ⊢
  rw [onBottom]
  split at h
  · next hescaped =>
    split at h
    · cases h
    · next hliteral =>
      rw [if_pos hescaped, if_neg hliteral]
      exact sign_onBottom hg more h
  · next hescaped =>
    rw [if_neg hescaped]
    exact sign_onBottom hg more h

/-- A text that can be read is read alike with more groups open around it, and after a change to its
outermost frame that goes unnoticed. -/
theorem run_onBottom (hg : Frame.Transparent g) (more : List Frame) {s : List Char}
    (h : r.run s = some r') : (r.onBottom g more).run s = some (r'.onBottom g more) := by
  induction s generalizing r with
  | nil =>
    cases h
    rfl
  | cons c s ih =>
    obtain ⟨mid, hstep, hrun⟩ := Option.bind_eq_some_iff.1 h
    exact Option.bind_eq_some_iff.2 ⟨_, step_onBottom hg more hstep, ih hrun⟩

end Reading

/-! ## Regular expressions as texts -/

/-- The alternatives of a regular expression, if the text is one that is read here. -/
def branches? (s : List Char) : Option (List (List Regex)) :=
  match Reading.start.run s with
  | some ⟨false, [f]⟩ => some f.branches
  | _ => none

/-- The regular expression that a text stands for, if it is one that is read here. -/
def read? (s : String) : Option Regex := (branches? s.toList).map choice

/-- A text stands for a regular expression that is found in another text. -/
def Finds (pattern text : String) : Prop := ∃ r, read? pattern = some r ∧ r.Found text.toList

theorem branches?_eq_some_iff {s : List Char} {bs : List (List Regex)} :
    branches? s = some bs ↔ ∃ f, Reading.start.run s = some ⟨false, [f]⟩ ∧ f.branches = bs := by
  unfold branches?
  split
  · next f h => simp [h]
  · next h =>
    constructor
    · intro hnone
      cases hnone
    · rintro ⟨f, hf, -⟩
      exact absurd hf (h f)

theorem finds_iff_of_branches? {pattern text : String} {bs : List (List Regex)}
    (h : branches? pattern.toList = some bs) :
    Finds pattern text ↔ ∃ b ∈ bs, (sequence b).Found text.toList := by
  rw [Finds, read?, h, ← found_choice_iff]
  simp

example : (read? "a(b|.*)\\.").isSome = true ∧ read? "a{2}" = none ∧ read? "a|*" = none := by
  decide +kernel

end Regex

end SearchFilter
