/-!
# Placeholders

A condition's text refers to a parameter by a placeholder: a number sign and, in braces, the
namespace, a dot and the name. The namespace is an ASCII identifier and the name is anything
without a closing brace. A text is read from left to right for the placeholders in it; what is
not part of one stands for itself.

Main statement: `join_scan`, the parts of a scan make up the text.
-/

namespace SearchFilter

/-! ## Identifiers -/

/-- An ASCII letter or an underscore. -/
def isIdentStart (c : Char) : Bool := c.isAlpha || c == '_'

/-- An ASCII letter, a digit or an underscore. -/
def isIdentRest (c : Char) : Bool := c.isAlphanum || c == '_'

/-- Whether a text is an ASCII letter or underscore followed by letters, digits and underscores. -/
def isIdentifier : List Char → Bool
  | [] => false
  | c :: rest => isIdentStart c && rest.all isIdentRest

/-! ## Marks -/

/-- A placeholder in a text. -/
structure Mark where
  ns : List Char
  name : List Char
  deriving DecidableEq, Repr

namespace Mark

/-- A placeholder as it is written. -/
def render (m : Mark) : List Char := '#' :: '{' :: m.ns ++ '.' :: m.name ++ ['}']

/-- The name and the rest, when a name and a closing brace come next. -/
def readName? (s : List Char) : Option (List Char × List Char) :=
  match s.takeWhile (· ≠ '}'), s.dropWhile (· ≠ '}') with
  | c :: cs, '}' :: rest => some (c :: cs, rest)
  | _, _ => none

/-- The placeholder at the start of a text and what follows it, if there is one. -/
def read? : List Char → Option (Mark × List Char)
  | '#' :: '{' :: s =>
    if isIdentifier (s.takeWhile isIdentRest) then
      match s.dropWhile isIdentRest with
      | '.' :: t => (readName? t).map fun (name, rest) => (⟨s.takeWhile isIdentRest, name⟩, rest)
      | _ => none
    else none
  | _ => none

theorem readName?_eq_some {s name rest : List Char} (h : readName? s = some (name, rest)) :
    s = name ++ '}' :: rest := by
  unfold readName? at h
  split at h
  · next c cs r hn hr =>
    simp only [Option.some.injEq, Prod.mk.injEq] at h
    obtain ⟨rfl, rfl⟩ := h
    rw [← hn, ← hr, List.takeWhile_append_dropWhile]
  · simp at h

theorem read?_eq_some {s rest : List Char} {m : Mark} (h : read? s = some (m, rest)) :
    s = m.render ++ rest := by
  unfold read? at h
  split at h
  · next s =>
    split at h
    · split at h
      · next t ht =>
        simp only [Option.map_eq_some_iff, Prod.exists] at h
        obtain ⟨name, r, hr, h⟩ := h
        simp only [Prod.mk.injEq] at h
        obtain ⟨rfl, rfl⟩ := h
        have hs := List.takeWhile_append_dropWhile (p := isIdentRest) (l := s)
        rw [ht, readName?_eq_some hr] at hs
        simp only [render, List.cons_append, List.append_assoc, List.nil_append,
          List.cons.injEq, true_and]
        exact hs.symm
      · simp at h
    · simp at h
  · simp at h

theorem length_lt_of_read? {s rest : List Char} {m : Mark} (h : read? s = some (m, rest)) :
    rest.length < s.length := by
  rw [read?_eq_some h]
  simp only [render, List.length_append, List.length_cons]
  omega

end Mark

/-! ## Scanning a text -/

/-- A text cut at its placeholders: what comes before the first one, and each placeholder with
what follows it. -/
structure Scanned where
  lead : List Char
  marks : List (Mark × List Char)

namespace Scanned

/-- The text again, with each placeholder as `write` gives it. -/
def join (write : Mark → List Char) (s : Scanned) : List Char :=
  s.lead ++ s.marks.flatMap fun (m, after) => write m ++ after

end Scanned

/-- Cuts a text at its placeholders, taking each as early as possible. -/
def scan : List Char → Scanned
  | [] => ⟨[], []⟩
  | c :: s =>
    match _h : Mark.read? (c :: s) with
    | some (m, rest) =>
      let later := scan rest
      ⟨[], (m, later.lead) :: later.marks⟩
    | none =>
      let later := scan s
      ⟨c :: later.lead, later.marks⟩
termination_by s => s.length
decreasing_by
  · exact Mark.length_lt_of_read? _h
  · simp

theorem join_scan (s : List Char) : (scan s).join Mark.render = s := by
  fun_induction scan s with
  | case1 => rfl
  | case2 c s m rest h later ih =>
    rw [Mark.read?_eq_some h]
    simpa [Scanned.join, later] using ih
  | case3 c s h later ih => simpa [Scanned.join, later] using ih

end SearchFilter
