import SearchFilter.Encoding.Token

/-!
# Passing over JSON values

The text after a value, when nothing of the value itself is wanted. Only its form is looked at:
numbers of any size, strings that spell no characters and containers of any depth will do.

Passing over goes token by token. Between two tokens it knows what has to come next and which
containers it is in.
-/

namespace SearchFilter

namespace Json

/-! ## Single tokens -/

/-- The text after a value that is no container. -/
def skipScalar? (s : List Char) : Option (Shorter s) :=
  match s with
  | '"' :: t =>
    match h : skipString? t with
    | some r => some ⟨r, Nat.lt_succ_of_lt (length_lt_of_skipString? h)⟩
    | none => none
  | s =>
    match readWord? s with
    | some (_, r) => some r
    | none => (readNumeral? s).map (·.2)

/-- The text after a name and its colon. -/
def skipName? (s : List Char) : Option (Shorter s) :=
  match s with
  | '"' :: t =>
    match h : skipString? t with
    | none => none
    | some r =>
      match hr : skipSpace r with
      | ':' :: rest => some ⟨rest, by
          have := length_lt_of_skipString? h
          have := length_skipSpace_le r
          simp only [hr, List.length_cons] at this ⊢
          omega⟩
      | _ => none
  | _ => none

/-! ## Containers -/

/-- A container. -/
inductive Container where
  | array
  | object
  deriving DecidableEq, Repr

namespace Container

def opening : Container → Char
  | array => '['
  | object => '\x7b'

def closing : Container → Char
  | array => ']'
  | object => '\x7d'

end Container

/-- What has to come next in a text. -/
inductive Awaited where
  | value
  | name
  /-- What follows the opening of a container: its end or an element. -/
  | start
  /-- What follows a value in a container: its end, or a comma and an element. -/
  | continuation
  deriving DecidableEq, Repr

/-- What an element of a container starts with. -/
def Container.element : Container → Awaited
  | array => .value
  | object => .name

/-- Where passing over stands: what has to come next, and the containers around it, the innermost
first. -/
structure Standing where
  awaited : Awaited
  inside : List Container
  deriving DecidableEq, Repr

namespace Standing

/-- Whether a whole value lies behind. -/
def isDone (p : Standing) : Bool := p.awaited == .continuation && p.inside.isEmpty

/-- The standing after a value or its opening bracket, and the text that is left. -/
def value? (inside : List Container) (s : List Char) : Option (Standing × Shorter s) :=
  match s with
  | [] => none
  | c :: t =>
    if c = Container.array.opening then
      some (⟨.start, .array :: inside⟩, .tail c t)
    else if c = Container.object.opening then
      some (⟨.start, .object :: inside⟩, .tail c t)
    else (skipScalar? (c :: t)).map fun r => (⟨.continuation, inside⟩, r)

/-- The standing after a name. -/
def name? (inside : List Container) (s : List Char) : Option (Standing × Shorter s) :=
  (skipName? s).map fun r => (⟨.value, inside⟩, r)

/-- The standing after an element's beginning. -/
def element? (c : Container) (inside : List Container) (s : List Char) :
    Option (Standing × Shorter s) :=
  match c.element with
  | .name => name? inside s
  | _ => value? inside s

/-- The standing after the next token, which is at the start of a text. -/
def token? (p : Standing) (s : List Char) : Option (Standing × Shorter s) :=
  match p.awaited, p.inside, s with
  | .value, inside, s => value? inside s
  | .name, inside, s => name? inside s
  | .start, c :: outer, t :: rest =>
    if t = c.closing then some (⟨.continuation, outer⟩, .tail t rest)
    else element? c (c :: outer) (t :: rest)
  | .continuation, c :: outer, t :: rest =>
    if t = c.closing then some (⟨.continuation, outer⟩, .tail t rest)
    else if t = ',' then some (⟨c.element, c :: outer⟩, .tail t rest)
    else none
  | _, _, _ => none

/-- The text that is left when a whole value lies behind. -/
def skip? (p : Standing) (s : List Char) : Option (List Char) :=
  if p.isDone then some s
  else
    match p.token? (skipSpace s) with
    | some (next, ⟨r, h⟩) =>
      have : r.length < s.length := Nat.lt_of_lt_of_le h (length_skipSpace_le s)
      next.skip? r
    | none => none
termination_by s.length

theorem length_le_of_skip? {p : Standing} {s r : List Char} (h : p.skip? s = some r) :
    r.length ≤ s.length := by
  fun_induction skip? p s with
  | case1 => simp_all
  | case2 p s _ next r' _ _ this ih =>
    have := ih h
    omega
  | case3 => simp at h

end Standing

/-- The text after a value. -/
def skipValue? (s : List Char) : Option (Shorter s) :=
  match hs : Standing.token? ⟨.value, []⟩ (skipSpace s) with
  | some (next, ⟨r, h⟩) =>
    match hr : next.skip? r with
    | some rest => some ⟨rest, by
        have := Standing.length_le_of_skip? hr
        have := length_skipSpace_le s
        omega⟩
    | none => none
  | none => none

end Json

end SearchFilter
