import SearchFilter.Encoding.Json

/-!
# Writing JSON

The compact form has no white space. In the indented form each item and member stands on a line
of its own, two spaces further in than what holds it, and empty arrays and objects are closed at
once.
-/

namespace SearchFilter

namespace Json

/-- A hexadecimal digit. -/
def hexDigit (n : Nat) : Char := if n < 10 then Char.ofNat (48 + n) else Char.ofNat (87 + n)

/-- A character inside the quotes of a string. Control characters are escaped, by a letter where
there is one. -/
def stringLiteral (c : Char) : List Char :=
  if c = '"' then ['\\', '"']
  else if c = '\\' then ['\\', '\\']
  else if c = '\n' then ['\\', 'n']
  else if c = '\r' then ['\\', 'r']
  else if c = '\t' then ['\\', 't']
  else if c = '\x08' then ['\\', 'b']
  else if c = '\x0c' then ['\\', 'f']
  else if c.toNat < 32 then ['\\', 'u', '0', '0', hexDigit (c.toNat / 16), hexDigit (c.toNat % 16)]
  else [c]

/-- A text in quotes. -/
def quote (s : String) : String := String.ofList ('"' :: s.toList.flatMap stringLiteral ++ ['"'])

mutual

/-- The compact form. -/
def compact : Json → String
  | .null => "null"
  | .bool b => if b then "true" else "false"
  | .number n => n.render
  | .string s => quote s
  | .array items => "[" ++ ",".intercalate (compactEach items) ++ "]"
  | .object members => "\x7b" ++ ",".intercalate (compactMembers members) ++ "\x7d"

def compactEach : List Json → List String
  | [] => []
  | j :: rest => compact j :: compactEach rest

def compactMembers : List (String × Json) → List String
  | [] => []
  | (k, v) :: rest => (quote k ++ ":" ++ compact v) :: compactMembers rest

end

/-- Lines between two brackets, indented by one step more than the brackets are. -/
def block (indent opening closing : String) : List String → String
  | [] => opening ++ closing
  | lines =>
    opening ++ "\n" ++ ",\n".intercalate (lines.map (indent ++ "  " ++ ·)) ++ "\n" ++ indent ++
      closing

mutual

/-- The indented form, where the value itself stands at `indent`. -/
def indented (indent : String) : Json → String
  | .null => "null"
  | .bool b => if b then "true" else "false"
  | .number n => n.render
  | .string s => quote s
  | .array items => block indent "[" "]" (indentedEach (indent ++ "  ") items)
  | .object members => block indent "\x7b" "\x7d" (indentedMembers (indent ++ "  ") members)

def indentedEach (indent : String) : List Json → List String
  | [] => []
  | j :: rest => indented indent j :: indentedEach indent rest

def indentedMembers (indent : String) : List (String × Json) → List String
  | [] => []
  | (k, v) :: rest =>
    (quote k ++ ": " ++ indented indent v) :: indentedMembers indent rest

end

end Json

end SearchFilter
