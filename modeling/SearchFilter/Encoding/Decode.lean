import SearchFilter.Encoding.Json
import SearchFilter.Formula
import SearchFilter.Term

/-!
# Decoding values

A decoder gives the value that a JSON value stands for, or the first thing that is wrong with it.
The parts of a value are decoded before the value itself is put together. Members that a decoder
does not know are passed over, and one that it knows must not be given twice.
-/

namespace SearchFilter

/-- What is wrong with a JSON value. -/
inductive DecodeError where
  /-- It has not the form of a value of the kind. -/
  | form
  | emptyClause (cause : EmptyClause)
  | collection (cause : CollectionError)
  deriving DecidableEq, Repr

namespace DecodeError

/-- What is wrong, where the form is right but the parts do not fit together. -/
def message? : DecodeError → Option String
  | form => none
  | emptyClause cause => some cause.message
  | collection cause => some cause.message

end DecodeError

/-- A decoded value, or what is wrong. -/
abbrev Decoded (α : Type) := Except DecodeError α

namespace Decoded

variable {α : Type}

/-- The value, which has to be there. -/
def require : Option α → Decoded α
  | some a => .ok a
  | none => .error .form

end Decoded

namespace Json

variable {α : Type}

def asString (j : Json) : Decoded String := .require j.string?

def asBool (j : Json) : Decoded Bool := .require j.bool?

def asArray (j : Json) : Decoded (List Json) := .require j.array?

def asObject (j : Json) : Decoded (List (String × Json)) := .require j.object?

def asList (decode : Json → Decoded α) (j : Json) : Decoded (List α) := do
  (← j.asArray).mapM decode

/-- One of several things by its name: a string, or an object whose only member has that name and
is `null`. -/
def asNamed (ofName? : String → Option α) : Json → Decoded α
  | .string name | .object [(name, .null)] => .require (ofName? name)
  | _ => .error .form

/-- A structure: an object with its parts as members, or the array of its parts, in the order of
`names`. That an array has too many items is found last. -/
def asParts (names : List String) (decode : List (String × Json) → Decoded α) : Json → Decoded α
  | .object members => decode members
  | .array items => do
    let a ← decode (names.zip items)
    if items.length ≤ names.length then return a else .error .form
  | _ => .error .form

/-- The value of an optional member; `null` is the same as no member. -/
def orNull (decode : Json → Decoded α) : Json → Decoded (Option α)
  | .null => .ok none
  | j => (decode j).map some

/-- The value of a member, if it is there. -/
def member (name : String) (decode : Json → Decoded α) (members : List (String × Json)) :
    Decoded (Option α) :=
  match members.filter (·.1 == name) with
  | [] => .ok none
  | [(_, j)] => (decode j).map some
  | _ :: _ :: _ => .error .form

end Json

end SearchFilter
