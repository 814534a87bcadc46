import Mathlib.Data.List.Basic
import SearchFilter.Condition.Placeholder

/-!
# Tokens of SQL texts

A text is first cut at its placeholders. What stands between them is read from left to right:
letters, digits and underscores next to each other are one word, white space only keeps words
apart, and every other character is a token of its own.

Main statement: two texts can be read one after the other where no word runs across
(`lex_append`).
-/

namespace SearchFilter.Sql

/-- A token of a text whose placeholders stand for an `α` each. -/
inductive Token (α : Type) where
  | word (letters : List Char)
  | sign (c : Char)
  | opening
  | closing
  | hole (a : α)
  deriving DecidableEq, Repr

namespace Token

variable {α β γ : Type}

/-- Replaces what placeholders stand for. -/
def map (f : α → β) : Token α → Token β
  | word letters => .word letters
  | sign c => .sign c
  | opening => .opening
  | closing => .closing
  | hole a => .hole (f a)

theorem map_map (f : α → β) (g : β → γ) (t : Token α) :
    (t.map f).map g = t.map fun a => g (f a) := by
  cases t <;> rfl

/-- Whether a token is this word, in any letter case. -/
def isWord (text : String) : Token α → Bool
  | word letters => letters.map Char.toUpper == text.toList
  | _ => false

@[simp] theorem isWord_map (f : α → β) (text : String) (t : Token α) :
    (t.map f).isWord text = t.isWord text := by
  cases t <;> rfl

/-- Whether a token is neither a parenthesis nor the name of a connective. -/
def isPlain : Token α → Bool
  | opening | closing => false
  | t => ["AND", "OR"].all fun text => !t.isWord text

theorem ne_opening_of_isPlain (t : Token α) (h : t.isPlain = true) : t ≠ opening := by
  rintro rfl
  exact absurd h Bool.false_ne_true

theorem ne_closing_of_isPlain (t : Token α) (h : t.isPlain = true) : t ≠ closing := by
  rintro rfl
  exact absurd h Bool.false_ne_true

theorem isWord_eq_false_of_isPlain (t : Token α) (h : t.isPlain = true) {text : String}
    (htext : text ∈ ["AND", "OR"]) : t.isWord text = false := by
  cases t with
  | opening | closing | sign c | hole a => rfl
  | word letters =>
    rw [isPlain, List.all_eq_true] at h
    simpa using h text htext
    all_goals simp

/-- The words of SQL in conditions. -/
def sqlWords : List String :=
  ["AND", "OR", "NOT", "IS", "NULL", "IN", "LIKE", "LOWER", "REGEXP_LIKE", "tsquery"]

/-- The name that a token is, as it is no word of SQL. -/
def name? : Token α → Option (List Char)
  | word letters => if letters ∈ sqlWords.map String.toList then none else some letters
  | _ => none

theorem name?_map (f : α → β) (t : Token α) : (t.map f).name? = t.name? := by
  cases t <;> rfl

/-- What a token's placeholder stands for. -/
def hole? : Token α → Option α
  | hole a => some a
  | _ => none

theorem hole?_map (f : α → β) (t : Token α) : (t.map f).hole? = t.hole?.map f := by
  cases t <;> rfl

end Token

variable {α β : Type}

/-- What the placeholders of tokens stand for, in order. -/
def holes (ts : List (Token α)) : List α := ts.filterMap Token.hole?

theorem holes_append (ts us : List (Token α)) : holes (ts ++ us) = holes ts ++ holes us :=
  List.filterMap_append

theorem holes_map (f : α → β) (ts : List (Token α)) :
    holes (ts.map (Token.map f)) = (holes ts).map f := by
  unfold holes
  rw [List.filterMap_map, List.map_filterMap]
  exact List.filterMap_congr fun t _ => Token.hole?_map f t

/-- The names among tokens. -/
def names (ts : List (Token α)) : List (List Char) := ts.filterMap Token.name?

theorem names_append (ts us : List (Token α)) : names (ts ++ us) = names ts ++ names us :=
  List.filterMap_append

theorem names_map (f : α → β) (ts : List (Token α)) : names (ts.map (Token.map f)) = names ts := by
  unfold names
  rw [List.filterMap_map]
  exact List.filterMap_congr fun t _ => Token.name?_map f t

/-! ## Words and signs -/

/-- The word that ends here, if one is being read. -/
def pending : List Char → List (Token α)
  | [] => []
  | c :: cs => [.word (c :: cs)]

/-- A character that is no part of a word. -/
def single (c : Char) : List (Token α) :=
  if c.isWhitespace then []
  else if c = '(' then [.opening]
  else if c = ')' then [.closing]
  else [.sign c]

/-- The tokens of a text without placeholders, after the letters of a word that may go on. -/
def lexAfter (letters : List Char) : List Char → List (Token α)
  | [] => pending letters
  | c :: s =>
    if isIdentRest c then lexAfter (letters ++ [c]) s
    else pending letters ++ single c ++ lexAfter [] s

/-- The tokens of a text without placeholders. -/
def lex (s : List Char) : List (Token α) := lexAfter [] s

@[simp] theorem lex_nil : lex [] = ([] : List (Token α)) := rfl

theorem lexAfter_cons_of_rest {c : Char} (h : isIdentRest c = true) (letters s : List Char) :
    (lexAfter letters (c :: s) : List (Token α)) = lexAfter (letters ++ [c]) s := by
  rw [lexAfter, if_pos h]

theorem lexAfter_cons_of_not {c : Char} (h : isIdentRest c = false) (letters s : List Char) :
    (lexAfter letters (c :: s) : List (Token α)) = pending letters ++ single c ++ lex s := by
  rw [lexAfter, if_neg (by simp [h])]
  rfl

theorem lex_cons_of_not {c : Char} (h : isIdentRest c = false) (s : List Char) :
    (lex (c :: s) : List (Token α)) = single c ++ lex s :=
  lexAfter_cons_of_not h [] s

theorem lexAfter_append_cons {c : Char} (h : isIdentRest c = false) (letters s t : List Char) :
    (lexAfter letters (s ++ c :: t) : List (Token α)) = lexAfter letters s ++ lex (c :: t) := by
  induction s generalizing letters with
  | nil =>
    rw [List.nil_append, lexAfter_cons_of_not h, lex_cons_of_not h, List.append_assoc, lexAfter]
  | cons d s ih =>
    rw [List.cons_append]
    by_cases hd : isIdentRest d = true
    · rw [lexAfter_cons_of_rest hd, lexAfter_cons_of_rest hd, ih]
    · rw [lexAfter_cons_of_not (by simpa using hd), lexAfter_cons_of_not (by simpa using hd),
        List.append_assoc _ (lex s)]
      exact congrArg _ (ih [])

/-- Whether a text ends within a word. -/
def endsInWord (s : List Char) : Bool := s.getLast?.any isIdentRest

/-- Whether a text starts within a word. -/
def startsInWord (s : List Char) : Bool := s.head?.any isIdentRest

theorem lex_append {s t : List Char} (h : endsInWord s = false ∨ startsInWord t = false) :
    (lex (s ++ t) : List (Token α)) = lex s ++ lex t := by
  rcases h with h | h
  · rcases List.eq_nil_or_concat s with rfl | ⟨s, c, rfl⟩
    · simp
    · rw [List.concat_eq_append] at h ⊢
      have hc : isIdentRest c = false := by simpa [endsInWord] using h
      have hst : (lex (s ++ c :: t) : List (Token α)) = lex s ++ lex (c :: t) :=
        lexAfter_append_cons hc [] s t
      have hsc : (lex (s ++ [c]) : List (Token α)) = lex s ++ lex [c] :=
        lexAfter_append_cons hc [] s []
      rw [List.append_assoc, List.cons_append, List.nil_append, hst, hsc, lex_cons_of_not hc,
        lex_cons_of_not hc [], lex_nil, List.append_nil, List.append_assoc]
  · cases t with
    | nil => simp
    | cons c t => exact lexAfter_append_cons (by simpa [startsInWord] using h) _ _ _

theorem lexAfter_word {w : List Char} (h : ∀ c ∈ w, isIdentRest c = true) (letters : List Char) :
    (lexAfter letters w : List (Token α)) = pending (letters ++ w) := by
  induction w generalizing letters with
  | nil => rw [lexAfter, List.append_nil]
  | cons c w ih =>
    rw [List.forall_mem_cons] at h
    rw [lexAfter_cons_of_rest h.1, ih h.2, List.append_assoc, List.cons_append, List.nil_append]

theorem lex_word {w : List Char} (hne : w ≠ []) (h : ∀ c ∈ w, isIdentRest c = true) :
    (lex w : List (Token α)) = [.word w] := by
  rw [lex, lexAfter_word h, List.nil_append]
  cases w with
  | nil => exact absurd rfl hne
  | cons c w => rfl

theorem holes_lex (s : List Char) : holes (lex s : List (Token α)) = [] := by
  suffices ∀ letters, holes (lexAfter letters s : List (Token α)) = [] from this []
  have hpending : ∀ letters, holes (pending letters : List (Token α)) = [] := by
    intro letters
    cases letters <;> rfl
  have hsingle : ∀ c, holes (single c : List (Token α)) = [] := by
    intro c
    unfold single
    split_ifs <;> rfl
  induction s with
  | nil => exact hpending
  | cons c s ih =>
    intro letters
    rw [lexAfter]
    split
    · exact ih _
    · rw [holes_append, holes_append, hpending, hsingle, ih]
      rfl

theorem map_lex (f : α → β) (s : List Char) : (lex s).map (Token.map f) = lex s := by
  suffices ∀ letters, (lexAfter letters s).map (Token.map f) = lexAfter letters s from this []
  have hpending : ∀ letters, (pending letters).map (Token.map f) = pending letters :=
    fun letters => by cases letters <;> rfl
  have hsingle : ∀ c, (single c).map (Token.map f) = single c := by
    intro c
    unfold single
    split_ifs <;> rfl
  induction s with
  | nil => exact hpending
  | cons c s ih =>
    intro letters
    rw [lexAfter, lexAfter]
    split
    · exact ih _
    · rw [List.map_append, List.map_append, hpending, hsingle, ih]

/-! ## Texts with placeholders -/

/-- The tokens of a text that has been cut at its placeholders. -/
def Scanned.tokens (s : Scanned) : List (Token Mark) :=
  lex s.lead ++ s.marks.flatMap fun (m, after) => .hole m :: lex after

/-- The tokens of a text. -/
def tokens (text : String) : List (Token Mark) := Scanned.tokens (scan text.toList)

theorem tokens_empty : tokens "" = [] := by
  have hscan : scan [] = ⟨[], []⟩ := by rw [scan]
  rw [tokens, String.toList_empty, hscan]
  rfl

theorem holes_tokens (text : String) :
    holes (tokens text) = (scan text.toList).marks.map (·.1) := by
  unfold tokens Scanned.tokens
  rw [holes_append, holes_lex, List.nil_append]
  generalize (scan text.toList).marks = marks
  induction marks with
  | nil => rfl
  | cons m marks ih =>
    rw [List.flatMap_cons, holes_append, ih, List.map_cons]
    have hm : holes (.hole m.1 :: lex m.2) = m.1 :: holes (lex m.2) := rfl
    rw [hm, holes_lex]
    rfl

/-! ## Outside parentheses -/

/-- The tokens that stand in no parentheses, when `depth` of them are open at the start. -/
def outermost : ℕ → List (Token α) → List (Token α)
  | _, [] => []
  | depth, .opening :: ts => outermost (depth + 1) ts
  | depth, .closing :: ts => outermost (depth - 1) ts
  | 0, t :: ts => t :: outermost 0 ts
  | depth + 1, _ :: ts => outermost (depth + 1) ts

theorem outermost_map (f : α → β) (depth : ℕ) (ts : List (Token α)) :
    outermost depth (ts.map (Token.map f)) = (outermost depth ts).map (Token.map f) := by
  induction ts generalizing depth with
  | nil => rfl
  | cons t ts ih =>
    cases t with
    | opening => exact ih (depth + 1)
    | closing => exact ih (depth - 1)
    | word letters | sign c | hole a =>
      cases depth with
      | zero => exact congrArg (_ :: ·) (ih 0)
      | succ depth => exact ih (depth + 1)

end SearchFilter.Sql
