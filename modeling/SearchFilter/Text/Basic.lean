/-!
# Characters and texts

A Unicode property is a table of code point intervals, and to have it is to lie in one of them. By
the property `White_Space` a text can be blank: as a search term it asks for nothing. A text is cut
at every character of a kind, such as the stars of a wildcard or the separators between tokens, and
what a reader leaves of it is shorter.
-/

namespace SearchFilter

/-! ## Sets of characters -/

/-- The characters whose code points lie in one of the intervals, ends included. -/
structure CharSet where
  intervals : List (Nat × Nat)

namespace CharSet

/-- Whether a character belongs to the set. -/
def has (s : CharSet) (c : Char) : Bool :=
  s.intervals.any fun i => decide (i.1 ≤ c.toNat) && decide (c.toNat ≤ i.2)

theorem has_iff {s : CharSet} {c : Char} :
    s.has c = true ↔ ∃ i ∈ s.intervals, i.1 ≤ c.toNat ∧ c.toNat ≤ i.2 := by
  simp [has]

end CharSet

/-! ## White space -/

/-- The characters with the property `White_Space`. -/
def whiteSpace : CharSet where
  intervals :=
    [(0x0009, 0x000D), (0x0020, 0x0020), (0x0085, 0x0085), (0x00A0, 0x00A0), (0x1680, 0x1680),
   (0x2000, 0x200A), (0x2028, 0x2029), (0x202F, 0x202F), (0x205F, 0x205F), (0x3000, 0x3000)]

/-- Whether a character is white space. -/
def isSpace (c : Char) : Bool := whiteSpace.has c

/-- Whether a text is empty or made of white space alone. -/
def isBlank (s : String) : Bool := s.toList.all isSpace

/-! ## Cutting texts -/

/-- The piece before the first character with `p`, and the pieces between it and the end. -/
def cut (p : Char → Bool) : List Char → List Char × List (List Char)
  | [] => ([], [])
  | c :: rest =>
    let (piece, later) := cut p rest
    if p c then ([], piece :: later) else (c :: piece, later)

/-- The pieces between the characters with `p`, of which there is always one more than of those
characters. -/
def pieces (p : Char → Bool) (s : List Char) : List (List Char) := (cut p s).1 :: (cut p s).2

/-- The pieces that are not empty. -/
def nonemptyPieces (p : Char → Bool) (s : List Char) : List (List Char) :=
  (pieces p s).filter fun piece => !piece.isEmpty

/-! ## What is left of a text -/

/-- Texts shorter than `s`. -/
abbrev Shorter (s : List Char) := { r : List Char // r.length < s.length }

namespace Shorter

/-- What follows the first character. -/
abbrev tail (c : Char) (t : List Char) : Shorter (c :: t) := ⟨t, Nat.lt_succ_self _⟩

/-- What is left of the text after the first character. -/
abbrev ofTail (c : Char) {t : List Char} (r : Shorter t) : Shorter (c :: t) :=
  ⟨r.1, Nat.lt_succ_of_lt r.2⟩

end Shorter

end SearchFilter
