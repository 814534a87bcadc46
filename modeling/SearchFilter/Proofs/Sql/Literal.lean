import Mathlib.Data.List.Basic
import SearchFilter.Condition

/-!
# Texts with literals in quotes

A text is read from left to right: a quote opens a literal that goes up to the next quote, where two
quotes next to each other are a quote of the literal itself, and every other character stands for
itself. A value is read back from its literal unless a quote follows.

Main statement: `literals?_literal_append`.
-/

namespace SearchFilter.Sql

/-- A unit of a text with literals. -/
inductive Symbol where
  | char (c : Char)
  | literal (content : List Char)
  deriving DecidableEq, Repr

/-- The content of a literal after its opening quote, and what follows the closing one. -/
def readLiteral? : List Char → Option (List Char × List Char)
  | [] => none
  | '\'' :: '\'' :: s => (readLiteral? s).map fun (content, rest) => ('\'' :: content, rest)
  | '\'' :: s => some ([], s)
  | c :: s => (readLiteral? s).map fun (content, rest) => (c :: content, rest)

theorem length_lt_of_readLiteral? {s content rest : List Char}
    (h : readLiteral? s = some (content, rest)) : rest.length < s.length := by
  fun_induction readLiteral? s generalizing content rest with
  | case1 => cases h
  | case2 s ih | case4 c s _ _ ih =>
    obtain ⟨⟨content', rest'⟩, hread, heq⟩ := Option.map_eq_some_iff.1 h
    have hlt := ih hread
    cases heq
    simp only [List.length_cons]
    omega
  | case3 s =>
    cases h
    exact Nat.lt_succ_self _

/-- The symbols of a text, if every literal in it is closed. -/
def literals? : List Char → Option (List Symbol)
  | [] => some []
  | c :: s =>
    if c = '\'' then
      match _h : readLiteral? s with
      | none => none
      | some (content, rest) => (literals? rest).map (.literal content :: ·)
    else (literals? s).map (.char c :: ·)
termination_by s => s.length
decreasing_by
  · have := length_lt_of_readLiteral? _h
    simp only [List.length_cons]
    omega
  · simp

/-! ## Texts without quotes -/

theorem literals?_append {s : List Char} (h : '\'' ∉ s) (t : List Char) :
    literals? (s ++ t) = (literals? t).map (s.map .char ++ ·) := by
  induction s with
  | nil => exact Option.map_id'.symm
  | cons c s ih =>
    rw [List.mem_cons, not_or] at h
    rw [List.cons_append, literals?, if_neg (Ne.symm h.1), ih h.2, Option.map_map]
    rfl

theorem literals?_of_not_mem {s : List Char} (h : '\'' ∉ s) :
    literals? s = some (s.map .char) := by
  have hread := literals?_append h []
  rw [List.append_nil, literals?, Option.map_some, List.append_nil] at hread
  exact hread

/-! ## Literals -/

theorem readLiteral?_quoted_append (value : List Char) {rest : List Char}
    (h : rest.head? ≠ some '\'') :
    readLiteral? (value.flatMap (fun c => if c = '\'' then ['\'', '\''] else [c]) ++
      '\'' :: rest) = some (value, rest) := by
  induction value with
  | nil =>
    rw [List.flatMap_nil, List.nil_append, readLiteral?]
    rintro s rfl
    exact h rfl
  | cons c value ih =>
    rw [List.flatMap_cons, List.append_assoc]
    split
    · next hc => rw [List.cons_append, List.cons_append, List.nil_append, readLiteral?, ih, hc]; rfl
    · next hc =>
      rw [List.cons_append, List.nil_append, readLiteral?, ih]
      · rfl
      · exact fun _ heq _ => hc heq
      · exact hc

/-- A value is read back from its literal. -/
theorem literals?_literal_append (value : String) {rest : List Char}
    (h : rest.head? ≠ some '\'') :
    literals? (Condition.literal value ++ rest) =
      (literals? rest).map (.literal value.toList :: ·) := by
  rw [Condition.literal, List.append_assoc, List.singleton_append, List.cons_append, literals?,
    if_pos rfl, readLiteral?_quoted_append value.toList h]

end SearchFilter.Sql
