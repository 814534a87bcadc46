import SearchFilter.Proofs.Pattern.Query
import SearchFilter.Proofs.Text.Lowercase
import SearchFilter.Proofs.Text.Split

/-!
# The lexemes of a query

Whatever stands in a pattern, its queries ask for the lexemes they are made of: the quotes, signs
and operators of a value stay inside a lexeme, and no text adds a lexeme to a query or takes one
from it. The tokens that a phrase consists of are the runs of a text between separators.

Main statement: `readPhrase?_texts`.
-/

namespace SearchFilter

/-! ## Tokens -/

/-- The tokens of a text are its runs between separators. -/
theorem runs_isSeparator_iff {s : String} {runs : List (List Char)} :
    Runs isSeparator s.toList runs ↔ runs = (tokens s).map String.toList := by
  have hself : (tokens s).map String.toList = nonemptyPieces isSeparator s.toList := by
    rw [tokens, List.map_map]
    exact (List.map_congr_left fun piece _ => String.toList_ofList).trans (List.map_id _)
  rw [hself, runs_iff]

theorem ne_empty_of_mem_tokens {s token : String} (h : token ∈ tokens s) : token ≠ "" := by
  obtain ⟨piece, hpiece, rfl⟩ := List.mem_map.1 h
  have hne := (List.mem_filter.1 hpiece).2
  rw [ne_eq, String.ofList_eq_empty_iff]
  rintro rfl
  cases hne

/-! ## Phrases -/

namespace Lexeme

variable {openEnded : Bool}

/-- Only the last lexeme of a phrase can be open-ended. -/
theorem ofTokens_eq_append (openEnded : Bool) (ts : List String) :
    ofTokens openEnded ts =
      ts.dropLast.map (fun t => ⟨t, false⟩) ++ ts.getLast?.toList.map fun t => ⟨t, openEnded⟩ := by
  fun_induction ofTokens openEnded ts with
  | case1 => rfl
  | case2 t => rfl
  | case3 t rest hrest ih =>
    obtain ⟨second, later, rfl⟩ := List.exists_cons_of_ne_nil fun h => hrest h
    rw [ih, List.dropLast_cons_cons, List.getLast?_cons_cons, List.map_cons, List.cons_append]

theorem ofTokens_false (ts : List String) : ofTokens false ts = ts.map fun t => ⟨t, false⟩ := by
  have hself : ts.dropLast ++ ts.getLast?.toList = ts := by
    cases hlast : ts.getLast? with
    | none =>
      rw [List.getLast?_eq_none_iff] at hlast
      subst hlast
      rfl
    | some t => exact List.dropLast_append_getLast? t hlast
  rw [ofTokens_eq_append, ← List.map_append, hself]

theorem text_mem_of_mem_ofTokens {ts : List String} {l : Lexeme} (h : l ∈ ofTokens openEnded ts) :
    l.text ∈ ts := by
  fun_induction ofTokens openEnded ts with
  | case1 => cases h
  | case2 t =>
    cases List.mem_singleton.1 h
    exact List.mem_cons_self
  | case3 t rest hrest ih =>
    rcases List.mem_cons.1 h with rfl | hmem
    · exact List.mem_cons_self
    · exact List.mem_cons_of_mem t (ih hmem)

theorem ofTokens_ne_nil {ts : List String} (h : ts ≠ []) : ofTokens openEnded ts ≠ [] := by
  unfold ofTokens
  split
  · exact absurd rfl h
  · exact List.cons_ne_nil _ _
  · exact List.cons_ne_nil _ _

theorem phrase?_eq_some {s : String} {ls : List Lexeme} (h : phrase? openEnded s = some ls) :
    2 ≤ (tokens s).length ∧ ls = ofTokens openEnded (tokens s) := by
  unfold phrase? at h
  split at h
  · next hlength =>
    cases h
    exact ⟨hlength, rfl⟩
  · cases h

theorem ne_nil_of_phrase? {s : String} {ls : List Lexeme} (h : phrase? openEnded s = some ls) :
    ls ≠ [] := by
  obtain ⟨hlength, rfl⟩ := phrase?_eq_some h
  exact ofTokens_ne_nil (List.ne_nil_of_length_pos (by omega))

theorem text_ne_empty_of_phrase? {s : String} {ls : List Lexeme}
    (h : phrase? openEnded s = some ls) {l : Lexeme} (hl : l ∈ ls) : l.text ≠ "" := by
  obtain ⟨-, rfl⟩ := phrase?_eq_some h
  exact ne_empty_of_mem_tokens (text_mem_of_mem_ofTokens hl)

end Lexeme

/-! ## Queries -/

namespace Pattern

variable {p : Pattern} {ls : List Lexeme}

/-- The phrase of a query is that of some text. -/
theorem exists_of_query_phrase? (h : p.query.phrase? = some ls) :
    ∃ openEnded s, Lexeme.phrase? openEnded s = some ls := by
  cases p with
  | exact v => cases h
  | lenient v =>
    dsimp only [query] at h
    exact ⟨_, _, h⟩
  | wildcard v tokenize =>
    dsimp only [query] at h
    split at h
    · exact ⟨_, _, h⟩
    · cases h

theorem ne_nil_of_query_phrase? (h : p.query.phrase? = some ls) : ls ≠ [] := by
  obtain ⟨_, _, hphrase⟩ := exists_of_query_phrase? h
  exact Lexeme.ne_nil_of_phrase? hphrase

/-- A pattern that restricts something has a character that is searched for. -/
theorem whole_text_ne_empty (h : p.isBlank = false) : p.query.whole.text ≠ "" := by
  have hblank : ∀ v : String, SearchFilter.isBlank v = false → v.toList ≠ [] := by
    intro v hv hnil
    rw [SearchFilter.isBlank, hnil] at hv
    cases hv
  cases p with
  | exact v | lenient v => exact lowercase_ne_empty (hblank v h)
  | wildcard v tokenize =>
    refine lowercase_ne_empty ?_
    rw [toList_withoutStars]
    intro hnil
    rw [starless, List.filter_eq_nil_iff] at hnil
    have hall : (v.toList.all fun c => c == '*' || isSpace c) = true :=
      List.all_eq_true.2 fun c hc => by simpa using Or.inl (by simpa using hnil c hc)
    exact absurd (hall.symm.trans h) (by decide)

theorem text_ne_empty_of_query_phrase? (h : p.query.phrase? = some ls) {l : Lexeme}
    (hl : l ∈ ls) : l.text ≠ "" := by
  obtain ⟨_, _, hphrase⟩ := exists_of_query_phrase? h
  exact Lexeme.text_ne_empty_of_phrase? hphrase hl

end Pattern

namespace Sql

theorem readPhrase?_render (l : Lexeme) : readPhrase? l.render.toList = some [l] := by
  have hphrase := readPhrase?_renderPhrase (List.cons_ne_nil l [])
  rwa [Lexeme.renderPhrase, List.map_singleton, String.intercalate_singleton] at hphrase

/-- The texts of a query are read as its lexemes. -/
theorem map_readPhrase?_texts {q : TextQuery} (h : ∀ ls, q.phrase? = some ls → ls ≠ []) :
    q.texts.map (fun text => readPhrase? text.toList) =
      some [q.whole] :: q.phrase?.toList.map some := by
  obtain ⟨whole, phrase?⟩ := q
  rw [TextQuery.texts, List.map_cons, TextQuery.wholeText, readPhrase?_render]
  cases phrase? with
  | none => rfl
  | some ls =>
    have hread := readPhrase?_renderPhrase (h ls rfl)
    exact congrArg (fun read => [some [whole], read]) hread

end Sql

namespace Pattern

theorem map_readPhrase?_lenient (v : String) :
    (lenient v).query.texts.map (fun text => Sql.readPhrase? text.toList) =
      some [⟨lowercase v, false⟩] ::
        (if 2 ≤ (tokens (lowercase v)).length then
          [some ((tokens (lowercase v)).map fun t => ⟨t, false⟩)] else []) := by
  rw [Sql.map_readPhrase?_texts fun _ => ne_nil_of_query_phrase?]
  dsimp only [query]
  rw [Lexeme.phrase?]
  split
  · rw [Lexeme.ofTokens_false]
    rfl
  · rfl

theorem map_readPhrase?_wildcard (v : String) (tokenize : Bool) :
    (wildcard v tokenize).query.texts.map (fun text => Sql.readPhrase? text.toList) =
      some [⟨lowercase (withoutStars v), true⟩] ::
        (if tokenize = true ∧ 2 ≤ (tokens (lowercase (withoutStars v))).length then
          [some ((tokens (lowercase (withoutStars v))).dropLast.map (fun t => ⟨t, false⟩) ++
            (tokens (lowercase (withoutStars v))).getLast?.toList.map fun t => ⟨t, true⟩)]
        else []) := by
  rw [Sql.map_readPhrase?_texts fun _ => ne_nil_of_query_phrase?]
  dsimp only [query]
  cases tokenize with
  | false => simp
  | true =>
    rw [Lexeme.phrase?, if_pos rfl]
    split
    · next h =>
      rw [if_pos ⟨rfl, h⟩, ← Lexeme.ofTokens_eq_append]
      rfl
    · next h =>
      rw [if_neg fun hboth => h hboth.2]
      rfl

theorem exists_readPhrase?_of_mem_texts {p : Pattern} (h : p.isBlank = false) {text : String}
    (htext : text ∈ p.query.texts) :
    ∃ ls, Sql.readPhrase? text.toList = some ls ∧ ∀ l ∈ ls, l.text ≠ "" := by
  rcases List.mem_cons.1 htext with rfl | hphrase
  · refine ⟨_, Sql.readPhrase?_render _, fun l hl => ?_⟩
    rw [List.mem_singleton.1 hl]
    exact whole_text_ne_empty h
  · rw [Option.mem_toList, TextQuery.phraseText?, Option.map_eq_some_iff] at hphrase
    obtain ⟨ls, hls, rfl⟩ := hphrase
    exact ⟨ls, Sql.readPhrase?_renderPhrase (ne_nil_of_query_phrase? hls),
      fun l hl => text_ne_empty_of_query_phrase? hls hl⟩

/-- A query is read to its end, and what it asks for is, for an exact pattern, the one lexeme of its
whole value in lower case; for a lenient one, that lexeme or else the phrase of its tokens, where
there are at least two; for a wildcard, a lexeme open at its end, or else the phrase of its tokens,
where they are wanted and there are at least two, of which the last is the one open at its end. The
tokens are the runs between separators, and no lexeme is empty unless the pattern is blank. -/
theorem readPhrase?_texts (v : String) (tokenize : Bool) :
    (exact v).query.texts.map (fun text => Sql.readPhrase? text.toList) =
        [some [⟨lowercase v, false⟩]] ∧
      (lenient v).query.texts.map (fun text => Sql.readPhrase? text.toList) =
        some [⟨lowercase v, false⟩] ::
          (if 2 ≤ (tokens (lowercase v)).length then
            [some ((tokens (lowercase v)).map fun t => ⟨t, false⟩)] else []) ∧
      (wildcard v tokenize).query.texts.map (fun text => Sql.readPhrase? text.toList) =
        some [⟨lowercase (withoutStars v), true⟩] ::
          (if tokenize = true ∧ 2 ≤ (tokens (lowercase (withoutStars v))).length then
            [some ((tokens (lowercase (withoutStars v))).dropLast.map (fun t => ⟨t, false⟩) ++
              (tokens (lowercase (withoutStars v))).getLast?.toList.map fun t => ⟨t, true⟩)]
          else []) ∧
      (∀ s runs, Runs isSeparator s.toList runs ↔ runs = (tokens s).map String.toList) ∧
      ∀ p : Pattern, p.isBlank = false → ∀ text ∈ p.query.texts,
        ∃ ls, Sql.readPhrase? text.toList = some ls ∧ ∀ l ∈ ls, l.text ≠ "" :=
  ⟨Sql.map_readPhrase?_texts fun _ => ne_nil_of_query_phrase?, map_readPhrase?_lenient v,
    map_readPhrase?_wildcard v tokenize, fun _ _ => runs_isSeparator_iff,
    fun _ hblank _ htext => exists_readPhrase?_of_mem_texts hblank htext⟩

/-- Quotes, signs and operators of a value stay inside the lexemes. -/
theorem readPhrase?_texts_operators :
    (wildcard "It's\\:*a' <-> 'b*" true).query.texts.map (fun text => Sql.readPhrase? text.toList) =
        [some [⟨"it's\\:a' <-> 'b", true⟩],
          some [⟨"it's", false⟩, ⟨":a'", false⟩, ⟨"<", false⟩, ⟨">", false⟩, ⟨"'b", true⟩]] ∧
      ∀ text ∈ (wildcard "*.*" true).query.texts,
        ∃ ls, Sql.readPhrase? text.toList = some ls ∧ ∀ l ∈ ls, l.text ≠ "" := by
  refine ⟨?_, (readPhrase?_texts "" true).2.2.2.2 (wildcard "*.*" true) (by decide)⟩
  have hlower : lowercase (withoutStars "It's\\:*a' <-> 'b*") = "it's\\:a' <-> 'b" := by
    decide +kernel
  have htokens : tokens "it's\\:a' <-> 'b" = ["it's", ":a'", "<", ">", "'b"] := by
    decide +kernel
  rw [(readPhrase?_texts _ true).2.2.1, hlower, htokens]
  rfl

end Pattern

end SearchFilter
