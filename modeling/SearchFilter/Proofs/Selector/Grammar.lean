import Mathlib.Data.List.Basic
import SearchFilter.Selector
import SearchFilter.Text.Alphanumeric

/-!
# The grammar of selectors

What it is for a text to spell a selector, said without a reader:

* a chain of `or` is a chain of `and`, or a chain of `or`, the connective and a chain of `and`;
* a chain of `and` is a primary, or a chain of `and`, the connective and a primary;
* a primary is a chain of `or` in parentheses, or a property, a comparator and a quoted text.

White space may stand before each token and at the end. The productions of chains begin with the
longer chain, so that chains associate to the left.
-/

namespace SearchFilter

/-- A stretch of white space, which may be empty. -/
def Spaces (w : List Char) : Prop := ∀ c ∈ w, isSpace c = true

namespace Connective

/-- The connective in signs. -/
def sign : Connective → List Char
  | and => ['&', '&']
  | or => ['|', '|']

/-- The connective as a word. -/
def word : Connective → List Char
  | and => ['a', 'n', 'd']
  | or => ['o', 'r']

/-- The ways to write a connective before the text `next`: in signs, or as a word in any letter case
that no letter, digit or underscore follows. -/
inductive Spells (op : Connective) : List Char → List Char → Prop
  | sign (next : List Char) : Spells op op.sign next
  | word {k next : List Char} (hk : k.map Char.toLower = op.word)
      (hnext : ∀ c ∈ next.head?, isAlphanumeric c = false ∧ c ≠ '_') : Spells op k next

namespace Spells

variable {op : Connective} {k s t : List Char}

theorem ne_nil (h : op.Spells k s) : k ≠ [] := by
  cases h with
  | sign => cases op <;> exact List.cons_ne_nil _ _
  | word hk =>
    rintro rfl
    cases op <;> cases hk

/-- Of what follows a connective only the first character matters. -/
theorem append_iff (hs : s ≠ []) : op.Spells k (s ++ t) ↔ op.Spells k s := by
  have hhead : (s ++ t).head? = s.head? := List.head?_append_of_ne_nil s hs
  constructor
  · intro h
    cases h with
    | sign => exact .sign s
    | word hk hnext => exact .word hk (hhead ▸ hnext)
  · intro h
    cases h with
    | sign => exact .sign _
    | word hk hnext => exact .word hk (hhead ▸ hnext)

end Spells

end Connective

namespace Selector

/-! ## Tokens -/

/-- The characters that property names are made of. -/
def IsNameChar (c : Char) : Prop := isAlphanumeric c = true ∨ c ∈ ['_', '-', '.']

/-- A property name: dots stand between other characters only. -/
structure IsPropertyName (name : List Char) : Prop where
  ne_nil : name ≠ []
  isNameChar : ∀ c ∈ name, IsNameChar c
  head_ne : name.head? ≠ some '.'
  last_ne : name.getLast? ≠ some '.'
  not_doubled : ¬ ['.', '.'] <:+: name

/-- What a character stands for after a backslash. Where it is none of the letters for control
characters and no quote, the backslash is part of the text. -/
inductive Escapes : Char → List Char → Prop
  | newline : Escapes 'n' ['\n']
  | tab : Escapes 't' ['\t']
  | carriageReturn : Escapes 'r' ['\r']
  | quote {c : Char} (hc : c ∈ ['"', '\'']) : Escapes c [c]
  | other {c : Char} (hc : c ∉ ['n', 't', 'r', '"', '\'']) : Escapes c ['\\', c]

/-- What may stand between two quotes of a kind, and the text that it stands for. -/
inductive Quotes (quote : Char) : List Char → List Char → Prop
  | nil : Quotes quote [] []
  | plain {c : Char} {source value : List Char} (hquote : c ≠ quote) (hc : c ≠ '\\')
      (h : Quotes quote source value) : Quotes quote (c :: source) (c :: value)
  | escape {c : Char} {v source value : List Char} (hc : Escapes c v)
      (h : Quotes quote source value) : Quotes quote ('\\' :: c :: source) (v ++ value)

/-! ## Phrases -/

/-- What texts can be read as. -/
inductive Phrase where
  | chain (op : Connective)
  | primary

/-- What chains of a connective join. -/
def Phrase.operand : Connective → Phrase
  | .or => chain .and
  | .and => primary

/-- The productions of the grammar, with the selectors that they build. -/
inductive Derives : Phrase → List Char → Selector → Prop
  | single {op : Connective} {s : List Char} {x : Selector} (h : Derives (.operand op) s x) :
      Derives (.chain op) s x
  | join {op : Connective} {s w k t : List Char} {x y : Selector} (hleft : Derives (.chain op) s x)
      (hw : Spaces w) (hk : op.Spells k t) (hright : Derives (.operand op) t y) :
      Derives (.chain op) (s ++ w ++ k ++ t) (.logical op x y)
  | group {w s w' : List Char} {x : Selector} (hw : Spaces w) (h : Derives (.chain .or) s x)
      (hw' : Spaces w') : Derives .primary (w ++ '(' :: s ++ w' ++ [')']) (.group x)
  | comparison {w name w' w'' source value : List Char} {op : Comparator} {quote : Char}
      (hw : Spaces w) (hname : IsPropertyName name) (hw' : Spaces w')
      (hmaximal : ∀ c ∈ (w' ++ op.token.toList).head?, ¬ IsNameChar c) (hw'' : Spaces w'')
      (hquote : quote ∈ ['"', '\'']) (h : Quotes quote source value) :
      Derives .primary (w ++ name ++ w' ++ op.token.toList ++ w'' ++ quote :: source ++ [quote])
        (.comparison (String.ofList name) op (String.ofList value))

theorem Derives.ne_nil {φ : Phrase} {s : List Char} {x : Selector} (h : Derives φ s x) :
    s ≠ [] := by
  induction h with
  | single _ ih => exact ih
  | join _ _ _ _ ih => simp [ih]
  | group => simp
  | comparison => simp

/-- A text that spells a selector. -/
def Spelled (text : List Char) (x : Selector) : Prop :=
  ∃ s w, text = s ++ w ∧ Derives (.chain .or) s x ∧ Spaces w

end Selector

end SearchFilter
