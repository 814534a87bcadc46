import SearchFilter.Proofs.Compile.Outline
import SearchFilter.Proofs.Compile.Reading
import SearchFilter.Proofs.Text.Lowercase

/-!
# What the text of a condition tells of its values

The values of a search are bound to names and never written into the text. What the text depends on
is little: which terms are blank, which are searched for token by token, and which wildcards have
two dots or more. Two expressions that agree on this, and on everything but the values, are compiled
to the same text with the same names, or have the same issues.

Main statement: `Expression.compile_congr_of_traits`.
-/

namespace SearchFilter

/-! ## Traits -/

/-- All that a text or an issue can depend on in a pattern. -/
structure PatternTraits where
  kind : TermKind
  /-- The pattern is a wildcard whose tokens may be searched for. -/
  tokenize : Bool
  blank : Bool
  /-- The text to search for has two tokens or more. -/
  splits : Bool
  /-- The text to search for has two dots or more. -/
  dotted : Bool
  deriving DecidableEq

/-- Whether a pattern is searched for as a phrase too. -/
def PatternTraits.hasPhrase (t : PatternTraits) : Bool :=
  t.splits && (t.kind == .lenient || t.kind == .wildcard && t.tokenize)

namespace Pattern

/-- The text to search for: a value in lower case, without the stars of a wildcard. -/
def searched : Pattern → String
  | exact v | lenient v => lowercase v
  | wildcard v _ => lowercase (withoutStars v)

def tokenize : Pattern → Bool
  | wildcard _ tokenize => tokenize
  | exact _ | lenient _ => false

def traits (p : Pattern) : PatternTraits where
  kind := p.kind
  tokenize := p.tokenize
  blank := p.isBlank
  splits := decide (2 ≤ (tokens p.searched).length)
  dotted := decide (2 ≤ p.searched.toList.count '.')

theorem splits_traits (openEnded : Bool) (p : Pattern) :
    p.traits.splits = (Lexeme.phrase? openEnded p.searched).isSome := by
  unfold Lexeme.phrase?
  split
  · next h => exact decide_eq_true h
  · next h => exact decide_eq_false h

theorem isSome_query_phrase? (p : Pattern) : p.query.phrase?.isSome = p.traits.hasPhrase := by
  unfold PatternTraits.hasPhrase
  cases p with
  | exact v => simp [query, traits, kind]
  | lenient v =>
    rw [splits_traits false]
    simp [query, traits, kind, searched]
  | wildcard v tokenize =>
    rw [splits_traits true]
    cases tokenize <;> simp [query, traits, kind, searched, Pattern.tokenize]

/-- Neither stars nor letter case have a part in the number of dots. -/
theorem dotted_wildcard (v : String) (tokenize : Bool) :
    (wildcard v tokenize).traits.dotted = decide (2 ≤ v.toList.count '.') := by
  have hdot : IsEarly '.' := ⟨by decide, by decide⟩
  rw [traits, searched, count_lowercase hdot, toList_withoutStars, starless,
    List.count_filter (by decide)]

end Pattern

namespace Scalar

/-- The traits of a term, which the absent value has not. -/
def traits : Scalar → Option PatternTraits
  | null => none
  | text p => some p.traits

/-- Of two terms with the same traits both are the absent value, or neither is. -/
theorem cases_of_traits_eq {s s' : Scalar} (h : s.traits = s'.traits) :
    (s = null ∧ s' = null) ∨ ∃ p p', s = text p ∧ s' = text p' ∧ p.traits = p'.traits := by
  cases s with
  | null =>
    cases s' with
    | null => exact .inl ⟨rfl, rfl⟩
    | text p' => cases h
  | text p =>
    cases s' with
    | null => cases h
    | text p' => exact .inr ⟨p, p', rfl, rfl, Option.some.inj h⟩

theorem isBlank_eq (s : Scalar) : s.isBlank = s.traits.elim false PatternTraits.blank := by
  cases s <;> rfl

theorem kind_eq (s : Scalar) : s.kind = s.traits.elim .null PatternTraits.kind := by
  cases s <;> rfl

end Scalar

/-- All that a text or an issue can depend on in a predicate. -/
structure PredicateTraits where
  field : Field
  operand : Operand
  terms : List (Option PatternTraits)
  deriving DecidableEq

namespace Predicate

def traits (p : Predicate) : PredicateTraits :=
  ⟨p.field, p.operand, p.term.members.map Scalar.traits⟩

/-- Which terms are blank is told by their traits. -/
theorem map_traits_effective (p : Predicate) :
    p.effective.map Scalar.traits =
      p.traits.terms.filter fun t => !t.elim false PatternTraits.blank := by
  rw [traits, List.filter_map, effective]
  congr 1
  exact List.filter_congr fun s _ => congrArg _ s.isBlank_eq

end Predicate

/-! ## Fragments -/

theorem map_eq_of_map_eq {α β γ : Type} {f : α → β} {t : α → γ} (hf : f.FactorsThrough t)
    {l l' : List α} (h : l.map t = l'.map t) : l.map f = l'.map f := by
  induction l generalizing l' with
  | nil =>
    rw [List.map_nil, eq_comm, List.map_eq_nil_iff] at h
    rw [h]
  | cons a l ih =>
    obtain ⟨b, l', rfl, hb, hl⟩ := List.map_eq_cons_iff.1 h.symm
    rw [List.map_cons, List.map_cons, hf hb.symm, ih hl.symm]

namespace Column

variable {d : Dialect} {c : Column} {s s' first first' : Scalar} {rest rest' : List Scalar}

theorem comparesWhole_congr (h : first.traits = first'.traits)
    (hrest : rest.map Scalar.traits = rest'.map Scalar.traits) :
    c.comparesWhole first rest = c.comparesWhole first' rest' := by
  have hempty : rest.isEmpty = rest'.isEmpty := by
    rw [← List.isEmpty_map (f := Scalar.traits), hrest, List.isEmpty_map]
  unfold comparesWhole
  rw [hempty, first.kind_eq, first'.kind_eq, h]

theorem outline_whole_congr (negated : Bool) (h : s.traits = s'.traits) :
    (c.whole negated s).outline = (c.whole negated s').outline := by
  obtain ⟨rfl, rfl⟩ | ⟨p, p', rfl, rfl, -⟩ := Scalar.cases_of_traits_eq h
  · rfl
  · rfl

/-- Of a list of texts it only counts how many there are, and that there is no absent value. -/
theorem map_texts? (l : List Scalar) :
    (texts? l).map (List.map fun _ => "") =
      (l.map Scalar.traits).mapM fun t => t.map fun _ => "" := by
  induction l with
  | nil => rfl
  | cons s l ih =>
    rw [List.map_cons, List.mapM_cons, ← ih]
    cases s with
    | null => rfl
    | text p => cases h : texts? l <;> simp [texts?, h, Scalar.traits]

theorem outline_membership_congr (h : first.traits = first'.traits)
    (hrest : rest.map Scalar.traits = rest'.map Scalar.traits) :
    (c.membership first rest).map Fragment.outline =
      (c.membership first' rest').map Fragment.outline := by
  have htexts : (texts? rest).map (List.map fun _ => "") =
      (texts? rest').map (List.map fun _ => "") := by
    rw [map_texts?, map_texts?, hrest]
  unfold membership
  obtain ⟨rfl, rfl⟩ | ⟨p, p', rfl, rfl, -⟩ := Scalar.cases_of_traits_eq h
  · rfl
  · cases hvalues : texts? rest with
    | none =>
      rw [hvalues, Option.map_none, eq_comm, Option.map_eq_none_iff] at htexts
      rw [htexts]
    | some values =>
      rw [hvalues, Option.map_some, eq_comm, Option.map_eq_some_iff] at htexts
      obtain ⟨values', hvalues', hlength⟩ := htexts
      have houtline : (Fragment.single false (.oneOf c.compared p.value values)).outline =
          (Fragment.single false (.oneOf c.compared p'.value values')).outline :=
        congrArg (fun vs => Fragment.single false (.oneOf c.compared "" vs)) hlength.symm
      rw [hvalues']
      exact congrArg Except.ok houtline

theorem outline_regex_congr (h : s.traits = s'.traits) :
    (c.regex d s).map Fragment.outline = (c.regex d s').map Fragment.outline := by
  unfold regex
  cases c.regexColumn? d with
  | none => rfl
  | some column =>
    obtain ⟨rfl, rfl⟩ | ⟨p, p', rfl, rfl, -⟩ := Scalar.cases_of_traits_eq h
    · rfl
    · rfl

theorem outline_query_congr {p p' : Pattern} (h : p.traits = p'.traits) :
    p.query.outline = p'.query.outline := by
  have hphrase : p.query.phrase?.isSome = p'.query.phrase?.isSome := by
    rw [p.isSome_query_phrase?, p'.isSome_query_phrase?, h]
  rw [TextQuery.outline_eq, TextQuery.outline_eq, hphrase]

theorem outline_searchTest_congr (negated : Bool) (h : s.traits = s'.traits) :
    (c.searchTest d negated s).outline = (c.searchTest d negated s').outline := by
  obtain ⟨rfl, rfl⟩ | ⟨p, p', rfl, rfl, hp⟩ := Scalar.cases_of_traits_eq h
  · rfl
  · cases d with
    | postgres =>
      exact congrArg (fun q => Test.mk negated (.search c.matched q)) (outline_query_congr hp)
    | h2 => rfl

/-- Whether the plain column stands in for a search vector. -/
theorem map_fst_dotted? :
    (c.dotted? d first rest).map Prod.fst =
      match d, c.companion?, first.traits, rest.map Scalar.traits with
      | .postgres, some column, some t, [] =>
        if !c.tokenized && (t.kind == .wildcard && t.dotted) then some column else none
      | _, _, _, _ => none := by
  unfold dotted?
  cases d with
  | h2 => rfl
  | postgres =>
    cases c.companion? with
    | none => rfl
    | some column =>
      cases rest with
      | cons second rest =>
        cases first with
        | null => rfl
        | text p => cases p <;> rfl
      | nil =>
        cases first with
        | null => rfl
        | text p =>
          cases p with
          | exact v => simp [Scalar.traits, Pattern.traits, Pattern.kind]
          | lenient v => simp [Scalar.traits, Pattern.traits, Pattern.kind]
          | wildcard v tokenize =>
            have hkind : (Pattern.wildcard v tokenize).traits.kind = .wildcard := rfl
            simp only [Scalar.traits, List.map_nil, hkind, Pattern.dotted_wildcard,
              beq_self_eq_true, Bool.true_and]
            split <;> rfl

theorem outline_search_congr (negated : Bool) (h : first.traits = first'.traits)
    (hrest : rest.map Scalar.traits = rest'.map Scalar.traits) :
    (c.search d negated first rest).map Fragment.outline =
      (c.search d negated first' rest').map Fragment.outline := by
  have hdotted : (c.dotted? d first rest).map Prod.fst =
      (c.dotted? d first' rest').map Prod.fst := by
    rw [map_fst_dotted?, map_fst_dotted?, h, hrest]
  have htests : (rest.map (c.searchTest d negated)).map Test.outline =
      (rest'.map (c.searchTest d negated)).map Test.outline := by
    rw [List.map_map, List.map_map]
    exact map_eq_of_map_eq (fun s s' => outline_searchTest_congr negated) hrest
  unfold search
  split
  · cases hd : c.dotted? d first rest with
    | none =>
      rw [hd, Option.map_none, eq_comm, Option.map_eq_none_iff] at hdotted
      rw [hdotted]
      exact congrArg Except.ok (congrArg₂ Fragment.mk (outline_searchTest_congr negated h) htests)
    | some x =>
      rw [hd, Option.map_some, eq_comm, Option.map_eq_some_iff] at hdotted
      obtain ⟨⟨column, pattern⟩, hd', rfl⟩ := hdotted
      rw [hd']
      rfl
  · rfl

theorem fragment_of_several {op : Operand} (hop : op = .eq ∨ op = .notEq ∨ op = .regex)
    (hrest : rest ≠ []) : c.fragment d op first rest = .error (.arity (rest.length + 1)) := by
  cases rest with
  | nil => exact absurd rfl hrest
  | cons second rest => rcases hop with rfl | rfl | rfl <;> rfl

/-- Of the terms that are not blank, the outline of a fragment and the problem with it tell no more
than the traits. -/
theorem outline_fragment_congr (op : Operand) (h : first.traits = first'.traits)
    (hrest : rest.map Scalar.traits = rest'.map Scalar.traits) :
    (c.fragment d op first rest).map Fragment.outline =
      (c.fragment d op first' rest').map Fragment.outline := by
  have hcompared : ∀ negated,
      (if c.comparesWhole first [] then .ok (c.whole negated first)
        else c.search d negated first []).map Fragment.outline =
      (if c.comparesWhole first' [] then .ok (c.whole negated first')
        else c.search d negated first' []).map Fragment.outline := by
    intro negated
    rw [comparesWhole_congr h rfl]
    split
    · exact congrArg Except.ok (outline_whole_congr negated h)
    · exact outline_search_congr negated h rfl
  have hterms : (rest = [] ∧ rest' = []) ∨
      (rest ≠ [] ∧ rest' ≠ [] ∧ rest.length = rest'.length) := by
    have hlength : rest.length = rest'.length := by simpa using congrArg List.length hrest
    rw [← List.length_eq_zero_iff, ← List.length_eq_zero_iff, ne_eq, ne_eq,
      ← List.length_eq_zero_iff, ← List.length_eq_zero_iff]
    omega
  cases op with
  | any => exact outline_search_congr false h hrest
  | oneOf =>
    rw [fragment, fragment, comparesWhole_congr h hrest]
    split
    · exact outline_membership_congr h hrest
    · exact outline_search_congr false h hrest
  | eq =>
    rcases hterms with ⟨rfl, rfl⟩ | ⟨hne, hne', hlength⟩
    · exact hcompared false
    · rw [fragment_of_several (.inl rfl) hne, fragment_of_several (.inl rfl) hne', hlength]
  | notEq =>
    rcases hterms with ⟨rfl, rfl⟩ | ⟨hne, hne', hlength⟩
    · exact hcompared true
    · rw [fragment_of_several (.inr (.inl rfl)) hne, fragment_of_several (.inr (.inl rfl)) hne',
        hlength]
  | regex =>
    rcases hterms with ⟨rfl, rfl⟩ | ⟨hne, hne', hlength⟩
    · exact outline_regex_congr h
    · rw [fragment_of_several (.inr (.inr rfl)) hne, fragment_of_several (.inr (.inr rfl)) hne',
        hlength]

end Column

/-! ## Expressions -/

/-- What becomes of a predicate, but for the values, is told by its traits. -/
theorem Predicate.outline_outcome_factorsThrough (d : Dialect) :
    Function.FactorsThrough (fun p : Predicate => (p.outcome d).outline) Predicate.traits := by
  intro p p' h
  have hfield : p.field = p'.field := congrArg PredicateTraits.field h
  have hoperand : p.operand = p'.operand := congrArg PredicateTraits.operand h
  have hterms : p.effective.map Scalar.traits = p'.effective.map Scalar.traits := by
    rw [map_traits_effective, map_traits_effective, h]
  dsimp only
  -- both have the same column, and terms whose traits are the same one by one
  cases hc : d.column? p.field with
  | none =>
    have hdropped : p.Dropped d := .inl hc
    have hdropped' : p'.Dropped d := .inl (hfield ▸ hc)
    rw [outcome_eq_dropped_iff.2 hdropped, outcome_eq_dropped_iff.2 hdropped']
  | some c =>
    have hc' : d.column? p'.field = some c := hfield ▸ hc
    cases he : p.effective with
    | nil =>
      rw [he, List.map_nil, eq_comm, List.map_eq_nil_iff] at hterms
      have hdropped : p.Dropped d := .inr (effective_eq_nil_iff.1 he)
      have hdropped' : p'.Dropped d := .inr (effective_eq_nil_iff.1 hterms)
      rw [outcome_eq_dropped_iff.2 hdropped, outcome_eq_dropped_iff.2 hdropped']
    | cons first rest =>
      rw [he, List.map_cons, eq_comm, List.map_eq_cons_iff] at hterms
      obtain ⟨first', rest', he', hfirst, hrest⟩ := hterms
      rw [outline_outcome hc he, outline_outcome hc' he', hfield, hoperand,
        Column.outline_fragment_congr _ hfirst.symm hrest.symm]

namespace Expression

/-- Expressions that differ in nothing but their values, and whose values have the same traits, have
the same issues, or else the same text and the same names of parameters. -/
theorem compile_congr_of_traits (d : Dialect) (ns : String) {e e' : Expression}
    (h : e.map Predicate.traits = e'.map Predicate.traits) :
    (∃ invalid, e.compile d ns = .error invalid ∧ e'.compile d ns = .error invalid) ∨
      ∃ c c', e.compile d ns = .ok c ∧ e'.compile d ns = .ok c' ∧ c.sqlText = c'.sqlText ∧
        c.parameters.names = c'.parameters.names := by
  have hfactors := Predicate.outline_outcome_factorsThrough d
  have hissues := issues_eq_of_map_eq hfactors h
  have hout := map_outline_pieces_eq hfactors h
  unfold compile
  rw [← hissues]
  cases e.issues d with
  | nil =>
    exact .inr ⟨_, _, rfl, rfl, Condition.sqlText_eq_of_outline ns hout,
      Condition.names_eq_of_outline ns hout⟩
  | cons i rest => exact .inl ⟨_, rfl, rfl⟩

/-- Values that would end a literal leave no trace in the text. -/
theorem compile_congr_of_traits_quote :
    ∃ c c', compile .postgres "p" (.clause .and (compare .name .any (.lenient "log4j core"))
          [compare .format .eq (.exact "raw")]) = .ok c ∧
      compile .postgres "p" (.clause .and (compare .name .any (.lenient "x' OR 1=1"))
          [compare .format .eq (.exact "';--")]) = .ok c' ∧
      c.sqlText = c'.sqlText ∧ c.parameters.names = c'.parameters.names := by
  have htraits : Formula.map Predicate.traits
        (.clause .and (compare .name .any (.lenient "log4j core"))
          [compare .format .eq (.exact "raw")]) =
      Formula.map Predicate.traits (.clause .and (compare .name .any (.lenient "x' OR 1=1"))
          [compare .format .eq (.exact "';--")]) := by
    decide +kernel
  refine (compile_congr_of_traits .postgres "p" htraits).resolve_left ?_
  rintro ⟨invalid, hinvalid, -⟩
  exact absurd (compile_eq_error_iff.1 hinvalid).1 (by decide +kernel)

end Expression

end SearchFilter
