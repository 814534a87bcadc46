import SearchFilter.Encoding.Numeral

/-!
# JSON values

Objects keep their members in the order in which they are written, repeated names included: what a
name given twice means is for the reader of a value to say.
-/

namespace SearchFilter

/-- A JSON value. -/
inductive Json where
  | null
  | bool (b : Bool)
  | number (n : Numeral)
  | string (s : String)
  | array (items : List Json)
  | object (members : List (String × Json))

namespace Json

/-- The number `n`. -/
def nat (n : Nat) : Json := .number (.ofNat n)

/-- A value that may be absent; its absence is written as `null`. -/
def optional {α : Type} (encode : α → Json) : Option α → Json
  | none => .null
  | some a => encode a

/-- The array of texts. -/
def strings (l : List String) : Json := .array (l.map .string)

/-- The text of a string value. -/
def string? : Json → Option String
  | .string s => some s
  | _ => none

/-- The items of an array. -/
def array? : Json → Option (List Json)
  | .array items => some items
  | _ => none

/-- The members of an object. -/
def object? : Json → Option (List (String × Json))
  | .object members => some members
  | _ => none

def bool? : Json → Option Bool
  | .bool b => some b
  | _ => none

/-- The number of a value that is a natural number of at most 64 bits. -/
def nat? : Json → Option Nat
  | .number n => n.nat?
  | _ => none

/-- The value of the last member with a name. -/
def member? (members : List (String × Json)) (name : String) : Option Json :=
  (members.reverse.find? (·.1 == name)).map (·.2)

/-- A member put where its name belongs among members in the order of their names, in place of a
member of the same name. -/
def insertMember (name : String) (value : Json) : List (String × Json) → List (String × Json)
  | [] => [(name, value)]
  | (k, v) :: rest =>
    if name < k then (name, value) :: (k, v) :: rest
    else if name = k then (name, value) :: rest
    else (k, v) :: insertMember name value rest

mutual

/-- The value with the members of each object in the order of their names, and only the last of
those with the same name. -/
def canonical : Json → Json
  | .array items => .array (canonicalEach items)
  | .object members => .object (canonicalMembers [] members)
  | j => j

def canonicalEach : List Json → List Json
  | [] => []
  | j :: rest => canonical j :: canonicalEach rest

def canonicalMembers (seen : List (String × Json)) :
    List (String × Json) → List (String × Json)
  | [] => seen
  | (k, v) :: rest => canonicalMembers (insertMember k (canonical v) seen) rest

end

end Json

end SearchFilter
