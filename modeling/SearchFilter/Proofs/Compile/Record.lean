import SearchFilter.Proofs.Compile.Row
import SearchFilter.Proofs.Pattern.Like
import SearchFilter.Proofs.Pattern.Query
import SearchFilter.Text.Lowercase

/-!
# Records

What a database has of a component: a row of texts, and search vectors that were made of texts. A
record also tells the comparisons of texts with patterns: it is known when a text is like a pattern
and what a vector answers, while it is left to the database which regular expressions it finds in a
text. A column without a value tells nothing.

Main statements: `Record.truth_like`, `Record.truth_likeAnyCase`, `Record.truth_regex` and
`Record.truth_search`, for comparisons as they are written.
-/

namespace SearchFilter

open Sql

/-- A row and the search vectors next to it. -/
structure Record where
  row : Row
  vector : String → Option SearchVector

/-- What a database takes for a match of a regular expression in a text. -/
abbrev RegexEngine := String → String → Bool

namespace Sql.Truth

/-- The truth value of a test of something that may be absent. -/
def ofTest {α : Type} (test : α → Bool) : Option α → Truth
  | none => unknown
  | some a => if test a then yes else no

theorem ofTest_eq_yes_iff {α : Type} {test : α → Bool} {o : Option α} :
    ofTest test o = yes ↔ ∃ a, o = some a ∧ test a = true := by
  cases o with
  | none => simp [ofTest]
  | some a => simp [ofTest]

theorem ofTest_eq_unknown_iff {α : Type} {test : α → Bool} {o : Option α} :
    ofTest test o = unknown ↔ o = none := by
  cases o with
  | none => simp [ofTest]
  | some a => cases h : test a <;> simp [ofTest, h]

end Sql.Truth

namespace Record

/-- Whether one of the queries is answered by a vector. -/
def answersAny (queries : List String) (v : SearchVector) : Bool :=
  queries.any fun q => (readPhrase? q.toList).any v.answers

/-- The truth values of comparisons with patterns. Those that are none have the truth values
`other`. -/
def patternTruth (r : Record) (engine : RegexEngine) (other : List (Token (Option Slot)) → Truth)
    (a : List (Token (Option Slot))) : Truth :=
  match a with
  | .word column :: .sign '@' :: .sign '@' :: query =>
    .ofTest (answersAny ((holes query).filterMap (Option.map Slot.value)))
      (r.vector (String.ofList column))
  | [.word column, .sign '~', .hole (some s)] =>
    .ofTest (engine s.value) (r.row (String.ofList column))
  | [.word function, .opening, .word column, .sign ',', .hole (some s), .closing] =>
    if function = "REGEXP_LIKE".toList then .ofTest (engine s.value) (r.row (String.ofList column))
    else other a
  | [.word column, .word operator, .hole (some s)] =>
    if operator = "LIKE".toList then
      .ofTest (fun text => likes s.value.toList text.toList) (r.row (String.ofList column))
    else other a
  | [.word function, .opening, .word column, .closing, .word operator, .word function', .opening,
      .hole (some s), .closing] =>
    if function = "LOWER".toList ∧ operator = "LIKE".toList ∧ function' = "LOWER".toList then
      .ofTest (fun text => likes (lowercase s.value).toList (lowercase text).toList)
        (r.row (String.ofList column))
    else other a
  | a => other a

/-- The truth values of comparisons in a record. Those that it does not tell have the truth values
`other`. -/
def truth (r : Record) (engine : RegexEngine) (other : List (Token (Option Slot)) → Truth) :
    List (Token (Option Slot)) → Truth :=
  r.row.truth (r.patternTruth engine other)

variable {d : Dialect} (r : Record) (engine : RegexEngine)
  (other : List (Token (Option Slot)) → Truth) {column : String}

theorem truth_equals (h : IsColumnName column) (value : String) :
    r.truth engine other (((Comparison.equals column value).tokens d).map (Token.map some)) =
      r.row.among column [value] :=
  r.row.truth_equals _ h value

theorem truth_like (h : IsColumnName column) (pattern : String) :
    r.truth engine other (((Comparison.like column pattern).tokens d).map (Token.map some)) =
      .ofTest (fun text => likes pattern.toList text.toList) (r.row column) := by
  have hread : ∀ letters : List Char, r.truth engine other
      [.word letters, .word "LIKE".toList, .hole (some ⟨column, pattern⟩)] =
        .ofTest (fun text => likes pattern.toList text.toList) (r.row (String.ofList letters)) :=
    fun _ => rfl
  rw [Comparison.tokens_like h]
  exact (hread column.toList).trans (by rw [String.ofList_toList])

theorem truth_likeAnyCase (h : IsColumnName column) (pattern : String) :
    r.truth engine other (((Comparison.likeAnyCase column pattern).tokens d).map (Token.map some)) =
      .ofTest (fun text => likes (lowercase pattern).toList (lowercase text).toList)
        (r.row column) := by
  have hread : ∀ letters : List Char, r.truth engine other
      [.word "LOWER".toList, .opening, .word letters, .closing, .word "LIKE".toList,
        .word "LOWER".toList, .opening, .hole (some ⟨column, pattern⟩), .closing] =
          .ofTest (fun text => likes (lowercase pattern).toList (lowercase text).toList)
            (r.row (String.ofList letters)) :=
    fun letters => by simp only [truth, Row.truth, patternTruth, and_self, if_true]
  rw [Comparison.tokens_likeAnyCase h]
  exact (hread column.toList).trans (by rw [String.ofList_toList])

theorem truth_regex (h : IsColumnName column) (pattern : String) :
    r.truth engine other (((Comparison.regex column pattern).tokens d).map (Token.map some)) =
      .ofTest (engine pattern) (r.row column) := by
  cases d with
  | postgres =>
    have hread : ∀ letters : List Char, r.truth engine other
        [.word letters, .sign '~', .hole (some ⟨column, pattern⟩)] =
          .ofTest (engine pattern) (r.row (String.ofList letters)) := fun _ => rfl
    rw [Comparison.tokens_regex_postgres h]
    exact (hread column.toList).trans (by rw [String.ofList_toList])
  | h2 =>
    have hread : ∀ letters : List Char, r.truth engine other
        [.word "REGEXP_LIKE".toList, .opening, .word letters, .sign ',',
          .hole (some ⟨column, pattern⟩), .closing] =
            .ofTest (engine pattern) (r.row (String.ofList letters)) :=
      fun letters => by simp only [truth, Row.truth, patternTruth, if_true]
    rw [Comparison.tokens_regex_h2 h]
    exact (hread column.toList).trans (by rw [String.ofList_toList])

theorem truth_search (h : IsColumnName column) (query : TextQuery) :
    r.truth engine other (((Comparison.search column query).tokens d).map (Token.map some)) =
      .ofTest (answersAny query.texts) (r.vector column) := by
  have hvalues : (holes ((Piece.allTokens (Comparison.queryPieces column query)).map
      (Token.map some))).filterMap (Option.map Slot.value) = query.texts := by
    rw [holes_map, Piece.holes_allTokens, Comparison.slots_queryPieces, List.map_map,
      List.filterMap_map]
    exact List.filterMap_some
  rw [Comparison.tokens_search h, ← hvalues]
  exact congrArg (fun c => Truth.ofTest _ (r.vector c)) String.ofList_toList

end Record

end SearchFilter
