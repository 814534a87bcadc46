import SearchFilter.Selector
import SearchFilter.Text.Alphanumeric

/-!
# Reading selectors

The grammar, with white space allowed before each token and at the end:

* a selector is one conjunction or more, joined by `||` or the word `or`;
* a conjunction is one operand or more, joined by `&&` or the word `and`;
* an operand is a selector in parentheses, or a property, a comparator and a quoted text.

Both chains associate to the left. The words are written in any letter case, and are words only
where a connective can stand and no letter, digit or underscore follows.

Each step returns the text that it leaves, which is shorter than the text it was given. An error
is told at the place that the reading had reached, as the number of bytes before it.
-/

namespace SearchFilter

namespace Selector

/-! ## Errors -/

/-- What is wrong with the text of a selector. -/
inductive Complaint where
  | empty
  | leftover (text : String)
  | unclosedGroup
  | noProperty
  | malformedProperty (property : String)
  | unknownComparator (token : String)
  | noText
  | unterminatedText
  /-- A complaint of another reader, in its own words. -/
  | other (message : String)
  deriving DecidableEq, Repr

def Complaint.message : Complaint → String
  | empty => "Empty selector expression"
  | leftover text => s!"Unexpected characters after expression: '{text}'"
  | unclosedGroup => "Expected closing parenthesis"
  | noProperty => "Expected property name"
  | malformedProperty property => s!"Malformed property name: '{property}'"
  | unknownComparator token => s!"Unknown operator: '{token}'"
  | noText => "Expected quoted string value"
  | unterminatedText => "Unterminated string"
  | other message => message

/-- What is wrong with the text of a selector, and how many bytes stand before it. -/
structure SyntaxError where
  complaint : Complaint
  position : Nat
  deriving DecidableEq, Repr

def SyntaxError.message (e : SyntaxError) : String :=
  s!"selector parse error at position {e.position}: {e.complaint.message}"

/-- What is wrong with a text, and what was left of it when that was found. -/
structure Failure where
  complaint : Complaint
  rest : List Char
  deriving DecidableEq, Repr

/-! ## Tokens -/

/-- The text from its first character that is not white space. -/
def skipSpace (s : List Char) : List Char := s.dropWhile isSpace

theorem length_skipSpace_le (s : List Char) : (skipSpace s).length ≤ s.length :=
  (List.dropWhile_sublist _).length_le

/-- The characters of property names. -/
def isPropertyChar (c : Char) : Bool := isAlphanumeric c || c == '_' || c == '.' || c == '-'

/-- Whether there are two dots next to each other. -/
def hasDoubleDot : List Char → Bool
  | a :: b :: rest => (a == '.' && b == '.') || hasDoubleDot (b :: rest)
  | _ => false

/-- Whether dots stand between other characters only. -/
def dotsSeparate (s : List Char) : Bool :=
  s.head? != some '.' && s.getLast? != some '.' && !hasDoubleDot s

theorem length_dropWhile_lt {p : Char → Bool} {c : Char} (h : p c = true) (t : List Char) :
    ((c :: t).dropWhile p).length < (c :: t).length := by
  rw [List.dropWhile_cons_of_pos h]
  exact Nat.lt_succ_of_le (List.dropWhile_sublist p).length_le

/-- Reads a property name: as many of its characters as there are. -/
def readProperty (s : List Char) : Except Failure (String × Shorter s) :=
  match s with
  | [] => .error ⟨.noProperty, []⟩
  | c :: t =>
    if h : isPropertyChar c = true then
      let name := (c :: t).takeWhile isPropertyChar
      if dotsSeparate name then
        .ok (String.ofList name, ⟨(c :: t).dropWhile isPropertyChar,
          length_dropWhile_lt h t⟩)
      else .error ⟨.malformedProperty (String.ofList name), c :: t⟩
    else .error ⟨.noProperty, c :: t⟩

/-- Reads a comparator, which has two characters. -/
def readComparator (s : List Char) : Except Failure (Comparator × Shorter s) :=
  match s with
  | a :: b :: rest =>
    match Comparator.ofToken? (String.ofList [a, b]) with
    | some op => .ok (op, ⟨rest, by simp only [List.length_cons]; omega⟩)
    | none => .error ⟨.unknownComparator (String.ofList [a, b]), a :: b :: rest⟩
  | short => .error ⟨.unknownComparator (String.ofList short), short⟩

/-- What a backslash and a character stand for in a quoted text. Escapes of regular expressions
are left as they are. -/
def unescape : Char → List Char
  | 'n' => ['\n']
  | 't' => ['\t']
  | 'r' => ['\r']
  | '"' => ['"']
  | '\'' => ['\'']
  | c => ['\\', c]

/-- Reads a quoted text after its first quote. -/
def readQuoted (quote : Char) : (s : List Char) → Except Failure (List Char × Shorter s)
  | [] => .error ⟨.unterminatedText, []⟩
  | c :: rest =>
    if c = quote then .ok ([], .tail c rest)
    else if c = '\\' then
      match rest with
      | [] => .error ⟨.unterminatedText, []⟩
      | e :: rest =>
        match readQuoted quote rest with
        | .ok (text, ⟨r, h⟩) =>
          .ok (unescape e ++ text, ⟨r, by simp only [List.length_cons]; omega⟩)
        | .error f => .error f
    else
      match readQuoted quote rest with
      | .ok (text, ⟨r, h⟩) => .ok (c :: text, .ofTail c ⟨r, h⟩)
      | .error f => .error f

/-- Reads a text in either kind of quotes. -/
def readText (s : List Char) : Except Failure (String × Shorter s) :=
  match s with
  | [] => .error ⟨.noText, []⟩
  | c :: rest =>
    if c = '"' ∨ c = '\'' then
      match readQuoted c rest with
      | .ok (text, ⟨r, h⟩) => .ok (String.ofList text, .ofTail c ⟨r, h⟩)
      | .error f => .error f
    else .error ⟨.noText, c :: rest⟩

/-- Whether a word ends before a text. -/
def endsWord : List Char → Bool
  | [] => true
  | c :: _ => !isAlphanumeric c && c != '_'

/-- The text after a connective, if one comes next. -/
def takeConnective? (op : Connective) (s : List Char) : Option (Shorter s) :=
  match op, s with
  | .and, '&' :: '&' :: rest => some ⟨rest, by simp only [List.length_cons]; omega⟩
  | .and, a :: n :: d :: rest =>
    if [a, n, d].map Char.toLower = ['a', 'n', 'd'] ∧ endsWord rest then
      some ⟨rest, by simp only [List.length_cons]; omega⟩
    else none
  | .or, '|' :: '|' :: rest => some ⟨rest, by simp only [List.length_cons]; omega⟩
  | .or, o :: r :: rest =>
    if [o, r].map Char.toLower = ['o', 'r'] ∧ endsWord rest then
      some ⟨rest, by simp only [List.length_cons]; omega⟩
    else none
  | _, _ => none

/-! ## Selectors -/

/-- Reads the comparison of a property with a text. -/
def readComparison (s : List Char) : Except Failure (Selector × Shorter s) :=
  match readProperty s with
  | .error f => .error f
  | .ok (property, ⟨s₁, h₁⟩) =>
    match readComparator (skipSpace s₁) with
    | .error f => .error f
    | .ok (op, ⟨s₂, h₂⟩) =>
      match readText (skipSpace s₂) with
      | .error f => .error f
      | .ok (value, ⟨s₃, h₃⟩) =>
        .ok (.comparison property op value, ⟨s₃, by
          have := length_skipSpace_le s₁
          have := length_skipSpace_le s₂
          omega⟩)

/-- How deep in the grammar the operands of a connective lie. -/
def height : Connective → Nat
  | .and => 0
  | .or => 2

mutual

/-- Reads operands of a connective, as many as it joins. -/
def readChain (op : Connective) (s : List Char) : Except Failure (Selector × Shorter s) :=
  match readOperand op s with
  | .error f => .error f
  | .ok (left, ⟨s₁, h₁⟩) =>
    match readMore op left s₁ with
    | .error f => .error f
    | .ok (all, ⟨s₂, h₂⟩) => .ok (all, ⟨s₂, by omega⟩)
termination_by (s.length, height op + 2)

/-- Reads the connective and the operands after `left`, as long as the connective comes next. -/
def readMore (op : Connective) (left : Selector) (s : List Char) :
    Except Failure (Selector × { r : List Char // r.length ≤ s.length }) :=
  have h₀ := length_skipSpace_le s
  match takeConnective? op (skipSpace s) with
  | none => .ok (left, ⟨skipSpace s, h₀⟩)
  | some ⟨s₁, h₁⟩ =>
    match readOperand op s₁ with
    | .error f => .error f
    | .ok (right, ⟨s₂, h₂⟩) =>
      match readMore op (.logical op left right) s₂ with
      | .error f => .error f
      | .ok (all, ⟨s₃, h₃⟩) => .ok (all, ⟨s₃, by omega⟩)
termination_by (s.length, 0)

/-- Reads an operand of a connective: what is joined by `or` are the chains of `and`. -/
def readOperand (op : Connective) (s : List Char) : Except Failure (Selector × Shorter s) :=
  match op with
  | .or => readChain .and s
  | .and => readPrimary s
termination_by (s.length, height op + 1)
decreasing_by all_goals simp [Prod.lex_def, height]

/-- Reads a group or a comparison. -/
def readPrimary (s : List Char) : Except Failure (Selector × Shorter s) :=
  have h₀ := length_skipSpace_le s
  match hs : skipSpace s with
  | '(' :: s₁ =>
    match readChain .or s₁ with
    | .error f => .error f
    | .ok (inner, ⟨s₂, h₂⟩) =>
      have h₃ := length_skipSpace_le s₂
      match hc : skipSpace s₂ with
      | ')' :: s₃ => .ok (.group inner, ⟨s₃, by
          simp only [hs, hc, List.length_cons] at h₀ h₃
          omega⟩)
      | other => .error ⟨.unclosedGroup, other⟩
  | t =>
    match readComparison t with
    | .error f => .error f
    | .ok (c, ⟨r, h⟩) => .ok (c, ⟨r, by simp only [hs] at h₀; omega⟩)
termination_by (s.length, 0)
decreasing_by
  simp only [hs, List.length_cons] at h₀
  omega

end

/-! ## Texts -/

/-- How many bytes the UTF-8 form of a text has. -/
def byteLength (s : List Char) : Nat := s.foldr (fun c n => c.utf8Size + n) 0

/-- The error of a failure in a text: what is left of it tells how far the reading came. -/
def Failure.inText (text : List Char) (f : Failure) : SyntaxError :=
  ⟨f.complaint, byteLength text - byteLength f.rest⟩

/-- Reads all of a text as a selector. -/
def readAll (s : List Char) : Except Failure Selector :=
  match skipSpace s with
  | [] => .error ⟨.empty, []⟩
  | c :: t =>
    match readChain .or (c :: t) with
    | .error f => .error f
    | .ok (selector, ⟨rest, _⟩) =>
      match skipSpace rest with
      | [] => .ok selector
      | left => .error ⟨.leftover (String.ofList left), left⟩

/-- The selector that a text spells. -/
def read (text : String) : Except SyntaxError Selector :=
  (readAll text.toList).mapError (·.inText text.toList)

end Selector

end SearchFilter
