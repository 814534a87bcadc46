import SearchFilter.Encoding.Skip

/-!
# Reading JSON

A text is one value with white space around its tokens and nothing after it. What is read is
nested to a limit, and its numbers are in the range of doubles. Members that are not wanted are
passed over and leave no trace; neither rule is for them.
-/

namespace SearchFilter

namespace Json

/-- How many containers can stand inside each other. -/
def maxDepth : Nat := 127

/-! ## Outlines -/

/-- Which members of objects are wanted. Where in a value one is, is told by places. -/
structure Outline (ρ : Type) where
  /-- The place of a member of an object, if it is wanted. -/
  member? : ρ → String → Option ρ
  /-- The place of the items of an array. -/
  item : ρ → ρ

/-- Every member is wanted. -/
def Outline.full : Outline Unit := ⟨fun _ _ => some (), fun _ => ()⟩

/-! ## Values -/

/-- Reads a value that is no container. -/
def readScalar? (s : List Char) : Option (Json × Shorter s) :=
  match s with
  | '"' :: t =>
    (readString? t).map fun (text, ⟨r, h⟩) =>
      (.string (String.ofList text), ⟨r, Nat.lt_succ_of_lt h⟩)
  | s =>
    match readWord? s with
    | some word => some word
    | none =>
      match readNumeral? s with
      | some (n, r) => if n.isTooLarge then none else some (.number n, r)
      | none => none

/-- The text of the next element of a container. One that is not the first has a comma before
it. -/
def toElement? (first : Bool) (s : List Char) : Option (NoLonger s) :=
  match first, s with
  | true, s => some (NoLonger.self s)
  | false, ',' :: t => some ⟨t, Nat.le_succ _⟩
  | false, _ => none

section
variable {ρ : Type} (o : Outline ρ)

mutual

/-- Reads a value that may have containers nested to a depth. -/
def readValue? (place : ρ) (depth : Nat) (s : List Char) : Option (Json × Shorter s) :=
  have h₀ := length_skipSpace_le s
  match hs : skipSpace s with
  | '[' :: t =>
    match depth with
    | 0 => none
    | depth + 1 =>
      match readItems? (o.item place) depth true t with
      | none => none
      | some (items, ⟨r, h⟩) =>
        some (.array items, ⟨r, by simp only [hs, List.length_cons] at h₀; omega⟩)
  | '{' :: t =>
    match depth with
    | 0 => none
    | depth + 1 =>
      match readMembers? place depth true t with
      | none => none
      | some (members, ⟨r, h⟩) =>
        some (.object members, ⟨r, by simp only [hs, List.length_cons] at h₀; omega⟩)
  | t => (readScalar? t).map fun (value, ⟨r, h⟩) =>
      (value, ⟨r, by simp only [hs] at h₀; omega⟩)
termination_by (s.length, 0)
decreasing_by
  all_goals
    simp only [hs, List.length_cons] at h₀
    omega

/-- Reads the items of an array up to its bracket. -/
def readItems? (place : ρ) (depth : Nat) (first : Bool) (s : List Char) :
    Option (List Json × Shorter s) :=
  have h₀ := length_skipSpace_le s
  match hs : skipSpace s with
  | ']' :: t => some ([], ⟨t, by simp only [hs, List.length_cons] at h₀; omega⟩)
  | t =>
    match toElement? first t with
    | none => none
    | some ⟨s₁, h₁⟩ =>
      match readValue? place depth s₁ with
      | none => none
      | some (item, ⟨s₂, h₂⟩) =>
        match readItems? place depth false s₂ with
        | none => none
        | some (items, ⟨s₃, h₃⟩) => some (item :: items, ⟨s₃, by simp only [hs] at h₀; omega⟩)
termination_by (s.length, 1)
decreasing_by
  all_goals
    simp only [hs] at h₀
    omega

/-- Reads the members of an object up to its brace. -/
def readMembers? (place : ρ) (depth : Nat) (first : Bool) (s : List Char) :
    Option (List (String × Json) × Shorter s) :=
  have h₀ := length_skipSpace_le s
  match hs : skipSpace s with
  | '}' :: t => some ([], ⟨t, by simp only [hs, List.length_cons] at h₀; omega⟩)
  | t =>
    match toElement? first t with
    | none => none
    | some ⟨s₁, h₁⟩ =>
      match readMember? place depth s₁ with
      | none => none
      | some (member?, ⟨s₂, h₂⟩) =>
        match readMembers? place depth false s₂ with
        | none => none
        | some (members, ⟨s₃, h₃⟩) =>
          some (member?.toList ++ members, ⟨s₃, by simp only [hs] at h₀; omega⟩)
termination_by (s.length, 2)
decreasing_by
  all_goals
    simp only [hs] at h₀
    omega

/-- Reads a name, a colon and a value. The value of a member that is not wanted is passed over. -/
def readMember? (place : ρ) (depth : Nat) (s : List Char) :
    Option (Option (String × Json) × Shorter s) :=
  have h₀ := length_skipSpace_le s
  match hs : skipSpace s with
  | '"' :: t =>
    match readString? t with
    | none => none
    | some (name, ⟨s₁, h₁⟩) =>
      have h₂ := length_skipSpace_le s₁
      match hc : skipSpace s₁ with
      | ':' :: s₂ =>
        have h₃ : s₂.length < s.length := by
          simp only [hs, hc, List.length_cons] at h₀ h₂
          omega
        match o.member? place (String.ofList name) with
        | none => (skipValue? s₂).map fun ⟨r, h⟩ => (none, ⟨r, Nat.lt_trans h h₃⟩)
        | some place =>
          match readValue? place depth s₂ with
          | none => none
          | some (value, ⟨r, h⟩) =>
            some (some (String.ofList name, value), ⟨r, Nat.lt_trans h h₃⟩)
      | _ => none
  | _ => none
termination_by (s.length, 1)
decreasing_by
  omega

end

/-- The wanted parts of the value that a text spells, if it spells one. -/
def readWith? (place : ρ) (text : String) : Option Json :=
  match readValue? o place maxDepth text.toList with
  | some (value, ⟨rest, _⟩) => if (skipSpace rest).isEmpty then some value else none
  | none => none

end

/-- The value that a text spells, if it does. -/
def read? (text : String) : Option Json := readWith? .full () text

end Json

end SearchFilter
