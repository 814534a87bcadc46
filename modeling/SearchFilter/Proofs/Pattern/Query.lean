import Mathlib.Data.List.Basic
import SearchFilter.Pattern

/-!
# What text search queries ask for

A query is read from left to right. A lexeme stands in quotes, where a quote is doubled and a
backslash takes the meaning from the character after it; `:*` after the quotes leaves its end open,
and `<->` puts lexemes next to each other. A search vector has the lexemes of a text with their
positions, and it answers a query when the lexemes of the query are found in it one directly after
the other.

Main statements: a query is read as it was written (`readPhrase?_renderPhrase`), and a single lexeme
is answered at any position (`SearchVector.answers_singleton_iff`).
-/

namespace SearchFilter

namespace Sql

/-! ## Reading queries -/

/-- What stands in quotes, and what follows the closing one. -/
def readQuoted? : List Char → Option (List Char × List Char)
  | [] => none
  | ['\\'] => none
  | '\\' :: c :: s => (readQuoted? s).map fun (text, rest) => (c :: text, rest)
  | '\'' :: '\'' :: s => (readQuoted? s).map fun (text, rest) => ('\'' :: text, rest)
  | '\'' :: s => some ([], s)
  | c :: s => (readQuoted? s).map fun (text, rest) => (c :: text, rest)

/-- Takes the mark of an open end, if there is one. -/
def takeOpenEnd : List Char → Bool × List Char
  | ':' :: '*' :: s => (true, s)
  | s => (false, s)

/-- The lexeme at the start of a text, and what follows it. -/
def readLexeme? : List Char → Option (Lexeme × List Char)
  | '\'' :: s => (readQuoted? s).map fun (text, rest) =>
    (⟨String.ofList text, (takeOpenEnd rest).1⟩, (takeOpenEnd rest).2)
  | _ => none

theorem length_lt_of_readQuoted? {s text rest : List Char}
    (h : readQuoted? s = some (text, rest)) : rest.length < s.length := by
  fun_induction readQuoted? s generalizing text rest with
  | case1 | case2 => cases h
  | case3 c s ih | case4 s ih | case6 c s _ _ _ _ ih =>
    obtain ⟨⟨text', rest'⟩, hread, heq⟩ := Option.map_eq_some_iff.1 h
    have hlt := ih hread
    cases heq
    simp only [List.length_cons]
    omega
  | case5 s =>
    cases h
    exact Nat.lt_succ_self _

theorem length_takeOpenEnd_le (s : List Char) : (takeOpenEnd s).2.length ≤ s.length := by
  unfold takeOpenEnd
  split
  · simp only [List.length_cons]
    omega
  · exact Nat.le_refl _

theorem length_lt_of_readLexeme? {s rest : List Char} {l : Lexeme}
    (h : readLexeme? s = some (l, rest)) : rest.length < s.length := by
  unfold readLexeme? at h
  split at h
  · obtain ⟨⟨text, later⟩, hread, heq⟩ := Option.map_eq_some_iff.1 h
    have hlt := length_lt_of_readQuoted? hread
    have hle := length_takeOpenEnd_le later
    cases heq
    simp only [List.length_cons]
    omega
  · cases h

/-- The lexemes of a query, if it is one. -/
def readPhrase? (s : List Char) : Option (List Lexeme) :=
  match _h : readLexeme? s with
  | none => none
  | some (l, []) => some [l]
  | some (l, ' ' :: '<' :: '-' :: '>' :: ' ' :: rest) => (readPhrase? rest).map (l :: ·)
  | some _ => none
termination_by s.length
decreasing_by
  have := length_lt_of_readLexeme? _h
  simp only [List.length_cons] at this
  omega

/-! ## Queries as they are written -/

theorem readQuoted?_lexemeLiteral_append (c : Char) (s : List Char) :
    readQuoted? (lexemeLiteral c ++ s) =
      (readQuoted? s).map fun (text, rest) => (c :: text, rest) := by
  unfold lexemeLiteral
  split
  · next hc => rw [List.cons_append, List.cons_append, List.nil_append, readQuoted?, hc]
  · next hbackslash =>
    split
    · next hc => rw [List.cons_append, List.cons_append, List.nil_append, readQuoted?, hc]
    · next hquote =>
      rw [List.cons_append, List.nil_append, readQuoted?]
      · exact fun heq _ => hbackslash heq
      · exact fun _ _ heq _ => hbackslash heq
      · exact fun _ heq _ => hquote heq
      · exact hquote

theorem readQuoted?_flatMap_lexemeLiteral (text : List Char) {rest : List Char}
    (h : rest.head? ≠ some '\'') :
    readQuoted? (text.flatMap lexemeLiteral ++ '\'' :: rest) = some (text, rest) := by
  induction text with
  | nil =>
    rw [List.flatMap_nil, List.nil_append, readQuoted?]
    rintro s rfl
    exact h rfl
  | cons c text ih =>
    rw [List.flatMap_cons, List.append_assoc, readQuoted?_lexemeLiteral_append, ih]
    rfl

theorem takeOpenEnd_of_space {rest : List Char} (h : ∀ c ∈ rest.head?, c = ' ') :
    takeOpenEnd rest = (false, rest) := by
  unfold takeOpenEnd
  split
  · exact absurd (h ':' rfl) (by decide)
  · rfl

/-- A lexeme is read as it was written where nothing follows it but a space. -/
theorem readLexeme?_render_append (l : Lexeme) {rest : List Char}
    (h : ∀ c ∈ rest.head?, c = ' ') :
    readLexeme? (l.render.toList ++ rest) = some (l, rest) := by
  obtain ⟨text, openEnded⟩ := l
  rw [Lexeme.render, quoteLexeme, String.toList_append, String.toList_ofList, List.cons_append,
    List.cons_append, List.cons_append, readLexeme?, List.append_assoc, List.append_assoc,
    List.singleton_append]
  cases openEnded with
  | true =>
    rw [readQuoted?_flatMap_lexemeLiteral text.toList (by simp)]
    simp [takeOpenEnd]
  | false =>
    have hquote : rest.head? ≠ some '\'' := fun hhead => absurd (h _ hhead) (by decide)
    rw [readQuoted?_flatMap_lexemeLiteral text.toList (by simpa using hquote)]
    simp [takeOpenEnd_of_space h]

/-- A query is read as it was written. -/
theorem readPhrase?_renderPhrase {ls : List Lexeme} (h : ls ≠ []) :
    readPhrase? (Lexeme.renderPhrase ls).toList = some ls := by
  unfold Lexeme.renderPhrase
  rw [String.toList_intercalate]
  induction ls with
  | nil => exact absurd rfl h
  | cons l ls ih =>
    cases ls with
    | nil =>
      have hread : readLexeme? (l.render.toList ++ []) = some (l, []) :=
        readLexeme?_render_append l (by simp)
      rw [List.append_nil] at hread
      rw [List.map_singleton, List.map_singleton, List.intercalate_singleton, readPhrase?, hread]
    | cons second rest =>
      have hnext := ih (List.cons_ne_nil _ _)
      generalize hlater : " <-> ".toList.intercalate
        (((second :: rest).map Lexeme.render).map String.toList) = later at hnext
      have htext : " <-> ".toList.intercalate
          (((l :: second :: rest).map Lexeme.render).map String.toList) =
            l.render.toList ++ (' ' :: '<' :: '-' :: '>' :: ' ' :: later) := by
        rw [← hlater, List.map_cons, List.map_cons, List.map_cons, List.map_cons,
          List.intercalate_cons_cons, List.append_assoc]
        rfl
      rw [htext, readPhrase?, readLexeme?_render_append l (by simp)]
      exact congrArg (Option.map _) hnext

/-! ## Search vectors -/

/-- Whether a lexeme of a query stands for a lexeme of a text. -/
def covers (l : Lexeme) (text : String) : Bool :=
  if l.openEnded then l.text.toList.isPrefixOf text.toList else l.text == text

/-- The lexemes of a text with their positions. -/
abbrev SearchVector := List (String × ℕ)

namespace SearchVector

/-- Whether the lexemes of a query stand one after the other, from a position on. -/
def hasFrom (v : SearchVector) : ℕ → List Lexeme → Bool
  | _, [] => true
  | position, l :: ls =>
    v.any (fun (text, place) => place == position && covers l text) && v.hasFrom (position + 1) ls

/-- Whether the lexemes of a query stand one after the other anywhere. -/
def answers (v : SearchVector) (ls : List Lexeme) : Bool :=
  v.any fun (_, position) => v.hasFrom position ls

theorem answers_singleton_iff {v : SearchVector} {l : Lexeme} :
    v.answers [l] = true ↔ ∃ e ∈ v, covers l e.1 = true := by
  simp only [answers, hasFrom, Bool.and_true, List.any_eq_true, Bool.and_eq_true, beq_iff_eq]
  constructor
  · rintro ⟨-, -, e, he, -, hcovers⟩
    exact ⟨e, he, hcovers⟩
  · rintro ⟨e, he, hcovers⟩
    exact ⟨e, he, e, he, rfl, hcovers⟩

example : answers [("org", 1), ("apache", 2), ("maven", 3)]
    [⟨"apache", false⟩, ⟨"mav", true⟩] = true := by decide

end SearchVector

end Sql

end SearchFilter
