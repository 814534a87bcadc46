import SearchFilter.Term
import SearchFilter.Text.Lowercase

/-!
# What columns are searched by

In a LIKE pattern `%` stands for any text, `_` for any character, and a backslash takes their
meaning from the character after it.

A search vector is queried by lexemes. Each is a lower-case text in quotes, so that nothing in it
is read as an operator; one with `:*` after it stands for every lexeme that starts with it. A
phrase is several lexemes one directly after the other.

A list of values is stored as one text, `["a","b"]`. A regular expression that is meant for one
value is made to find its match between the marks at which an element can start and end.
-/

namespace SearchFilter

/-! ## LIKE patterns -/

/-- A character as it stands for itself in a LIKE pattern. -/
def likeLiteral (c : Char) : List Char :=
  if c = '\\' ∨ c = '%' ∨ c = '_' then ['\\', c] else [c]

/-- The LIKE pattern of a text as it stands. -/
def escapeLike (s : String) : String := String.ofList (s.toList.flatMap likeLiteral)

/-- A character of a wildcard in a LIKE pattern: a star is any text. -/
def likeWildcard (c : Char) : List Char := if c = '*' then ['%'] else likeLiteral c

/-- The LIKE pattern of the texts that start with a wildcard. A star at its end is not doubled. -/
def prefixPattern (s : String) : String :=
  String.ofList (s.toList.flatMap likeWildcard ++
    if s.toList.getLast? = some '*' then [] else ['%'])

namespace Pattern

/-- The LIKE pattern of the texts that contain what a pattern asks for. Between two parts of a
wildcard any text may stand; stars at its ends, or next to each other, add nothing. -/
def containing : Pattern → String
  | exact v | lenient v => String.ofList ('%' :: v.toList.flatMap likeLiteral ++ ['%'])
  | wildcard v _ =>
    let parts := (nonemptyPieces (· == '*') v.toList).map fun part => part.flatMap likeLiteral
    String.ofList ('%' :: ['%'].intercalate parts ++ ['%'])

end Pattern

/-! ## Tokens -/

/-- The characters between the tokens of a value. -/
def isSeparator (c : Char) : Bool :=
  c == '.' || c == '-' || c == '/' || c == '\\' || c == ' '

/-- The parts of a value between separators. -/
def tokens (s : String) : List String :=
  (nonemptyPieces isSeparator s.toList).map String.ofList

/-! ## Lexemes -/

/-- A character inside the quotes of a lexeme. -/
def lexemeLiteral (c : Char) : List Char :=
  if c = '\\' then ['\\', '\\'] else if c = '\'' then ['\'', '\''] else [c]

/-- A text in the quotes of a lexeme. -/
def quoteLexeme (s : String) : String :=
  String.ofList ('\'' :: s.toList.flatMap lexemeLiteral ++ ['\''])

/-- A unit of a text search. -/
structure Lexeme where
  text : String
  /-- Every lexeme that starts with the text will do. -/
  openEnded : Bool
  deriving DecidableEq, Repr

namespace Lexeme

def render (l : Lexeme) : String := quoteLexeme l.text ++ if l.openEnded then ":*" else ""

/-- The lexemes of a phrase, of which the last may be open-ended. -/
def ofTokens (openEnded : Bool) : List String → List Lexeme
  | [] => []
  | [t] => [⟨t, openEnded⟩]
  | t :: rest => ⟨t, false⟩ :: ofTokens openEnded rest

/-- The phrase of the tokens of a text, if there are at least two. -/
def phrase? (openEnded : Bool) (s : String) : Option (List Lexeme) :=
  if 2 ≤ (tokens s).length then some (ofTokens openEnded (tokens s)) else none

/-- Lexemes one directly after the other. -/
def renderPhrase (ls : List Lexeme) : String := " <-> ".intercalate (ls.map render)

end Lexeme

/-! ## Queries -/

/-- What is left of a text without its stars. -/
def starless (cs : List Char) : List Char := cs.filter (· != '*')

/-- A text without its stars. -/
def withoutStars (s : String) : String := String.ofList (starless s.toList)

theorem toList_withoutStars (s : String) : (withoutStars s).toList = starless s.toList :=
  String.toList_ofList

/-- What a search vector is asked for: the whole value as one lexeme or, where there is one, the
phrase of its tokens. -/
structure TextQuery where
  whole : Lexeme
  phrase? : Option (List Lexeme)
  deriving DecidableEq, Repr

namespace TextQuery

/-- The text of the lexeme. -/
def wholeText (q : TextQuery) : String := q.whole.render

/-- The text of the phrase, if there is one. -/
def phraseText? (q : TextQuery) : Option String := q.phrase?.map Lexeme.renderPhrase

/-- The texts of the alternatives. -/
def texts (q : TextQuery) : List String := q.wholeText :: q.phraseText?.toList

end TextQuery

namespace Pattern

/-- The query for a pattern. A wildcard can only be open at its end, so its stars are left out
wherever they stand. -/
def query : Pattern → TextQuery
  | exact v => ⟨⟨lowercase v, false⟩, none⟩
  | lenient v => ⟨⟨lowercase v, false⟩, Lexeme.phrase? false (lowercase v)⟩
  | wildcard v tokenize =>
    let text := lowercase (withoutStars v)
    ⟨⟨text, true⟩, if tokenize then Lexeme.phrase? true text else none⟩

end Pattern

/-! ## Regular expressions for the elements of a list -/

/-- The regular expression of what stands before an element. -/
def elementStart : String := "(\\[\"|,\")"

/-- The regular expression of what stands after an element. -/
def elementEnd : String := "(\",|\"\\])"

/-- Whether a text ends in a backslash that is not itself escaped. -/
def endsInEscape (cs : List Char) : Bool := (cs.reverse.takeWhile (· == '\\')).length % 2 == 1

/-- Takes the anchor off the start of a regular expression, if there is one. -/
def takeStartAnchor : List Char → Bool × List Char
  | '^' :: rest => (true, rest)
  | cs => (false, cs)

/-- Takes the anchor off the end of a regular expression, if there is one. An escaped `$` is no
anchor. -/
def takeEndAnchor (cs : List Char) : Bool × List Char :=
  if cs.getLast? = some '$' ∧ ¬endsInEscape cs.dropLast then (true, cs.dropLast) else (false, cs)

/-- The regular expression that finds an element in a stored list where `pattern` finds it by
itself. Only an element matched from its start can be matched to its end; without an anchor at the
start the pattern has to cover the whole element. -/
def elementRegex (pattern : String) : String :=
  let (fromStart, rest) := takeStartAnchor pattern.toList
  let (toEnd, body) := takeEndAnchor rest
  let body := String.ofList body
  if fromStart then
    if toEnd then elementStart ++ body ++ elementEnd else elementStart ++ body
  else elementStart ++ "(" ++ body ++ ")" ++ elementEnd

end SearchFilter
