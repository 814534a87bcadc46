import SearchFilter.Encoding.Json
import SearchFilter.Text.Basic

/-!
# The tokens of JSON

Strings, numbers and words at the start of a text. What is read leaves a text that is shorter than
the one it was read from.

A string can be read or only passed over. To be read, it must spell characters: an escaped
surrogate has to be one half of a pair. When it is passed over, an escape needs no more than its
four digits.
-/

namespace SearchFilter

namespace Json

/-- Texts no longer than `s`. -/
abbrev NoLonger (s : List Char) := { r : List Char // r.length ≤ s.length }

/-- A text of which nothing has been read. -/
def NoLonger.self (s : List Char) : NoLonger s := ⟨s, Nat.le_refl _⟩

/-! ## White space -/

def isJsonSpace (c : Char) : Bool := c == ' ' || c == '\t' || c == '\n' || c == '\r'

/-- The text from its first character that is not white space. -/
def skipSpace (s : List Char) : List Char := s.dropWhile isJsonSpace

theorem length_skipSpace_le (s : List Char) : (skipSpace s).length ≤ s.length :=
  (List.dropWhile_sublist _).length_le

/-! ## Escapes -/

/-- The value of a hexadecimal digit. -/
def hexValue? (c : Char) : Option Nat :=
  if '0' ≤ c ∧ c ≤ '9' then some (c.toNat - 48)
  else if 'a' ≤ c ∧ c ≤ 'f' then some (c.toNat - 87)
  else if 'A' ≤ c ∧ c ≤ 'F' then some (c.toNat - 55)
  else none

/-- The value of four hexadecimal digits. -/
def hexValues? (a b c d : Char) : Option Nat := do
  let a ← hexValue? a
  let b ← hexValue? b
  let c ← hexValue? c
  let d ← hexValue? d
  return ((a * 16 + b) * 16 + c) * 16 + d

/-- The character of an escape that is one letter. -/
def escaped? : Char → Option Char
  | '"' => some '"'
  | '\\' => some '\\'
  | '/' => some '/'
  | 'b' => some '\x08'
  | 'f' => some '\x0c'
  | 'n' => some '\n'
  | 'r' => some '\r'
  | 't' => some '\t'
  | _ => none

/-- The character of two UTF-16 units, if they are the halves of a pair. -/
def pair? (high low : Nat) : Option Char :=
  if 0xD800 ≤ high ∧ high < 0xDC00 ∧ 0xDC00 ≤ low ∧ low < 0xE000 then
    some (Char.ofNat (0x10000 + (high - 0xD800) * 0x400 + (low - 0xDC00)))
  else none

/-- Whether a character stands for itself in a string. -/
def isPlain (c : Char) : Bool := c != '\\' && decide (32 ≤ c.toNat)

/-! ## Strings -/

/-- Reads one character inside the quotes of a string. -/
def readChar? (s : List Char) : Option (Char × Shorter s) :=
  match s with
  | '\\' :: 'u' :: a :: b :: c :: d :: rest =>
    match hexValues? a b c d with
    | none => none
    | some n =>
      if n < 0xD800 ∨ 0xE000 ≤ n then
        some (Char.ofNat n, ⟨rest, by simp only [List.length_cons]; omega⟩)
      else
        match rest with
        | '\\' :: 'u' :: e :: f :: g :: h :: rest =>
          match (hexValues? e f g h).bind (pair? n) with
          | some p => some (p, ⟨rest, by simp only [List.length_cons]; omega⟩)
          | none => none
        | _ => none
  | '\\' :: e :: rest =>
    match escaped? e with
    | some c => some (c, ⟨rest, by simp only [List.length_cons]; omega⟩)
    | none => none
  | c :: rest => if isPlain c then some (c, .tail c rest) else none
  | [] => none

/-- Reads a string after its first quote. -/
def readString? (s : List Char) : Option (List Char × Shorter s) :=
  match s with
  | [] => none
  | c :: t =>
    if c = '"' then some ([], .tail c t)
    else
      match readChar? (c :: t) with
      | none => none
      | some (c, ⟨s₁, h₁⟩) =>
        match readString? s₁ with
        | none => none
        | some (text, ⟨s₂, h₂⟩) => some (c :: text, ⟨s₂, by omega⟩)
termination_by s.length
decreasing_by exact h₁

/-- The text after a string, from after its first quote. -/
def skipString? : List Char → Option (List Char)
  | '"' :: rest => some rest
  | '\\' :: 'u' :: a :: b :: c :: d :: rest =>
    if (hexValues? a b c d).isSome then skipString? rest else none
  | '\\' :: e :: rest => if (escaped? e).isSome then skipString? rest else none
  | c :: rest => if isPlain c then skipString? rest else none
  | [] => none

theorem length_lt_of_skipString? {s r : List Char} (h : skipString? s = some r) :
    r.length < s.length := by
  fun_induction skipString? s with
  | case1 rest => simp_all
  | case2 a b c d rest _ ih =>
    have := ih h
    simp only [List.length_cons]
    omega
  | case4 e rest _ _ ih =>
    have := ih h
    simp only [List.length_cons]
    omega
  | case6 c rest _ _ _ _ ih =>
    have := ih h
    simp only [List.length_cons]
    omega
  | _ => simp at h

/-! ## Numbers -/

/-- The digits at the start of a text, if there are any. -/
def readDigits? (s : List Char) : Option (List Char × Shorter s) :=
  match s with
  | [] => none
  | d :: t =>
    if d.isDigit then
      some (d :: t.takeWhile Char.isDigit, ⟨t.dropWhile Char.isDigit, by
        have := (List.dropWhile_sublist (l := t) Char.isDigit).length_le
        simp only [List.length_cons]
        omega⟩)
    else none

/-- The digits before the point: a leading zero stands alone. -/
def readWhole? (s : List Char) : Option (List Char × Shorter s) :=
  match s with
  | '0' :: rest => some (['0'], .tail '0' rest)
  | s => readDigits? s

/-- The digits after the point, if there is a point. -/
def readFraction? (s : List Char) : Option (List Char × NoLonger s) :=
  match s with
  | '.' :: rest =>
    (readDigits? rest).map fun (digits, ⟨r, h⟩) =>
      (digits, ⟨r, by simp only [List.length_cons]; omega⟩)
  | s => some ([], NoLonger.self s)

/-- The value of an exponent after its letter. -/
def readPower? (s : List Char) : Option (Int × Shorter s) :=
  match s with
  | '-' :: rest =>
    (readDigits? rest).map fun (digits, ⟨r, h⟩) =>
      (-(Nat.ofDigitChars 10 digits 0 : Int), ⟨r, by simp only [List.length_cons]; omega⟩)
  | '+' :: rest =>
    (readDigits? rest).map fun (digits, ⟨r, h⟩) =>
      ((Nat.ofDigitChars 10 digits 0 : Int), ⟨r, by simp only [List.length_cons]; omega⟩)
  | s => (readDigits? s).map fun (digits, r) => ((Nat.ofDigitChars 10 digits 0 : Int), r)

/-- The exponent, which may be absent. -/
def readExponent? (s : List Char) : Option (Option Int × NoLonger s) :=
  match s with
  | c :: rest =>
    if c = 'e' ∨ c = 'E' then
      (readPower? rest).map fun (power, ⟨r, h⟩) =>
        (some power, ⟨r, by simp only [List.length_cons]; omega⟩)
    else some (none, NoLonger.self (c :: rest))
  | [] => some (none, NoLonger.self [])

/-- Reads a number without its sign. -/
def readUnsigned? (negative : Bool) (s : List Char) : Option (Numeral × Shorter s) :=
  match readWhole? s with
  | none => none
  | some (whole, ⟨s₁, h₁⟩) =>
    match readFraction? s₁ with
    | none => none
    | some (fraction, ⟨s₂, h₂⟩) =>
      match readExponent? s₂ with
      | none => none
      | some (exponent?, ⟨s₃, h₃⟩) =>
        some (⟨negative, whole, fraction, exponent?⟩, ⟨s₃, by omega⟩)

/-- Reads a number, which may be too large. -/
def readNumeral? (s : List Char) : Option (Numeral × Shorter s) :=
  match s with
  | '-' :: rest =>
    (readUnsigned? true rest).map fun (n, ⟨r, h⟩) =>
      (n, ⟨r, by simp only [List.length_cons]; omega⟩)
  | s => readUnsigned? false s

/-! ## Words -/

/-- Reads one of the three words. -/
def readWord? (s : List Char) : Option (Json × Shorter s) :=
  match s with
  | 'n' :: 'u' :: 'l' :: 'l' :: rest =>
    some (.null, ⟨rest, by simp only [List.length_cons]; omega⟩)
  | 't' :: 'r' :: 'u' :: 'e' :: rest =>
    some (.bool true, ⟨rest, by simp only [List.length_cons]; omega⟩)
  | 'f' :: 'a' :: 'l' :: 's' :: 'e' :: rest =>
    some (.bool false, ⟨rest, by simp only [List.length_cons]; omega⟩)
  | _ => none

end Json

end SearchFilter
