/-!
# Numbers in JSON

A number is kept by its digits, so that none is too long to be written. To be read it has to be in
the range of doubles: what counts is its leading digits, as many as fit in 64 bits, times a power
of ten, and the product of the two as doubles must not be infinite.
-/

namespace SearchFilter

/-- A number by its decimal digits. -/
structure Numeral where
  negative : Bool
  whole : List Char
  /-- The digits after the point, which is left out when there are none. -/
  fraction : List Char
  exponent? : Option Int
  deriving DecidableEq, Repr

/-- A natural number times a power of ten. -/
structure Scaled where
  significand : Nat
  power : Int
  deriving DecidableEq, Repr

/-! ## Doubles -/

/-- The nearest number with a significand of 53 bits. Of two that are equally near, the one whose
last bit is zero. -/
def roundToDouble (n : Nat) : Nat :=
  let unit := Nat.pow 2 (n.log2 + 1 - 53)
  let below := n / unit
  let excess := 2 * (n % unit)
  if excess < unit ∨ (excess = unit ∧ below % 2 = 0) then below * unit else (below + 1) * unit

/-- Whether the product of the two parts as doubles is infinite. No power above 308 is a double. -/
def Scaled.isInfinite (s : Scaled) : Bool :=
  s.significand != 0 && decide (0 ≤ s.power) &&
    (decide (308 < s.power) ||
      decide (Nat.pow 2 1024 ≤
        roundToDouble (roundToDouble s.significand * roundToDouble (Nat.pow 10 s.power.toNat))))

namespace Numeral

/-- The digits of a natural number. -/
def ofNat (n : Nat) : Numeral := ⟨false, (toString n).toList, [], none⟩

def render (n : Numeral) : String :=
  (if n.negative then "-" else "") ++ String.ofList n.whole ++
    (if n.fraction.isEmpty then "" else "." ++ String.ofList n.fraction) ++
    match n.exponent? with
    | none => ""
    | some e => "e" ++ toString e

/-- The natural number of at most 64 bits that is written without sign, fraction or exponent. -/
def nat? (n : Numeral) : Option Nat :=
  if n.negative || !n.fraction.isEmpty || n.exponent?.isSome then none
  else
    let value := Nat.ofDigitChars 10 n.whole 0
    if value < UInt64.size then some value else none

/-! ## Range -/

/-- Appends digits to a number as long as it fits in 64 bits, and gives back the others. -/
def takeDigits (significand : Nat) : List Char → Nat × List Char
  | [] => (significand, [])
  | d :: rest =>
    let next := 10 * significand + (d.toNat - 48)
    if next < UInt64.size then takeDigits next rest else (significand, d :: rest)

/-- The leading digits that fit in 64 bits. Digits left over before the point still count for the
power; those left over after it do not. -/
def scaled (n : Numeral) : Scaled :=
  let (significand, left) := takeDigits 0 n.whole
  let (significand, unused) := takeDigits significand n.fraction
  ⟨significand,
    (left.length : Int) - ((n.fraction.length : Int) - unused.length) + n.exponent?.getD 0⟩

/-- Whether a number is too large to be a double. -/
def isTooLarge (n : Numeral) : Bool := n.scaled.isInfinite

end Numeral

end SearchFilter
