import SearchFilter.Proofs.Compile.Rejection

/-!
# No predicate falls through

A predicate can be compiled by one check after the other: whether its field has a column, whether a
term is left, how many terms the operand takes, whether a whole value is compared or a text
searched, and what each term is compared by. Every choice then needs a branch for what the checks
before it leave out, such as a set without members or a term without a query, and the text that is
written there is no SQL. `Predicate.outcomeOrFault` is such a compiler. It comes to the same outcome
as `Predicate.outcome`, and so does not get to these branches.

Main statement: `Predicate.outcomeOrFault_eq`.
-/

namespace SearchFilter

/-- A branch for what the checks before it leave out. -/
inductive FallThrough where
  /-- `EQ` or `NOT_EQ` has no term to compare the whole value with, or several. -/
  | notSingle
  /-- The set to compare the whole value with has no members. -/
  | emptySet
  /-- `ANY` compares the whole value. -/
  | anyWhole
  /-- A term to search for has no query. -/
  | noQuery
  /-- A term to search for has no pattern. -/
  | noPattern
  /-- No term is searched for. -/
  | noTest
  deriving DecidableEq, Repr

namespace Column

/-- Why a compiler that can fall through has no fragment. -/
inductive Fault where
  | problem (p : Problem)
  | fallThrough (branch : FallThrough)
  deriving DecidableEq, Repr

variable (d : Dialect) (c : Column) (operand : Operand) (terms : List Scalar)

/-! ## The compiler -/

/-- The only one of some terms. -/
def single? : List Scalar → Option Scalar
  | [s] => some s
  | _ => none

/-- Whether the whole value of the column is compared. -/
def takesWhole : Bool :=
  match operand with
  | .regex => true
  | .eq | .notEq | .oneOf =>
    !c.fulltext || (!c.tokenized && ((single? terms).map (·.kind == .exact)).getD false)
  | .any => false

/-- The column's whole value compared with terms. -/
def wholeOrFault : Except Fault Fragment :=
  match operand with
  | .eq | .notEq =>
    match single? terms with
    | none => .error (.fallThrough .notSingle)
    | some s =>
      match s.value? with
      | none => .ok (.single (operand == .notEq) (.absent c.compared))
      | some value => .ok (.single (operand == .notEq) (.equals c.compared value))
  | .regex =>
    match c.regexColumn? d with
    | none => .error (.problem (.unsupported .regex))
    | some column =>
      match (single? terms).bind Scalar.value? with
      | none => .error (.problem .nullTerm)
      | some value => .ok (.single false (.regex column value))
  | .oneOf =>
    if terms.any (·.kind == .null) then .error (.problem .nullTerm)
    else
      match terms.filterMap Scalar.value? with
      | [] => .error (.fallThrough .emptySet)
      | value :: values => .ok (.single false (.oneOf c.compared value values))
  | .any => .error (.fallThrough .anyWhole)

/-- The texts of the queries for a term. -/
def queries : Scalar → List String
  | .null => []
  | .text p => p.query.texts

/-- The LIKE pattern for a term. -/
def pattern? : Scalar → Option String
  | .null => none
  | .text p => some p.containing

/-- The search for a term in the text of the column. -/
def matchOrFault (s : Scalar) : Except Fault Comparison :=
  match d with
  | .postgres =>
    match s, queries s with
    | .text p, _ :: _ => .ok (.search c.matched p.query)
    | _, _ => .error (.fallThrough .noQuery)
  | .h2 =>
    match pattern? s with
    | none => .error (.fallThrough .noPattern)
    | some pattern => .ok (.likeAnyCase c.matched pattern)

/-- The test for a term, of which the absent value is not searched for. -/
def testOrFault (negated : Bool) (s : Scalar) : Except Fault Test :=
  if s.kind == .null then .ok ⟨negated, .absent c.compared⟩
  else (c.matchOrFault d s).map (⟨negated, ·⟩)

/-- The plain column and the LIKE pattern that stand in for a search vector. -/
def shortcut? : Option (String × String) :=
  match d with
  | .h2 => none
  | .postgres =>
    if c.tokenized then none
    else
      match c.companion?, single? terms with
      | some column, some (.text (.wildcard v _)) =>
        if v.toList.count '.' < 2 then none else some (column, prefixPattern v)
      | _, _ => none

/-- The terms searched for in the text of the column. -/
def searchOrFault : Except Fault Fragment :=
  if c.fulltext then
    match c.shortcut? d terms with
    | some (column, pattern) => .ok (.single (operand == .notEq) (.like column pattern))
    | none =>
      match terms.mapM (c.testOrFault d (operand == .notEq)) with
      | .error fault => .error fault
      | .ok [] => .error (.fallThrough .noTest)
      | .ok (test :: tests) => .ok ⟨test, tests⟩
  else .error (.problem (.unsupported d.textStrategy))

/-- The fragment for an operand and terms, by the way in which they are compared. -/
def fragmentOrFault : Except Fault Fragment :=
  if !operand.acceptsMultiple && decide (1 < terms.length) then
    .error (.problem (.arity terms.length))
  else if c.takesWhole operand terms then c.wholeOrFault d operand terms
  else c.searchOrFault d operand terms

end Column

/-- What becomes of a predicate, by a compiler that can fall through. -/
def Predicate.outcomeOrFault (d : Dialect) (p : Predicate) : Except FallThrough Outcome :=
  match d.column? p.field with
  | none => .ok .dropped
  | some c =>
    if p.effective.isEmpty then .ok .dropped
    else
      match c.fragmentOrFault d p.operand p.effective with
      | .ok fragment => .ok (.rendered fragment)
      | .error (.problem problem) => .ok (.rejected ⟨p.field, p.operand, problem⟩)
      | .error (.fallThrough branch) => .error branch

/-! ## Its branches are not reached -/

namespace Column

variable {d : Dialect} {c : Column} {first : Scalar} {rest : List Scalar}

theorem testOrFault_eq (negated : Bool) :
    c.testOrFault d negated = fun s => .ok (c.searchTest d negated s) := by
  funext s
  cases s with
  | null => rfl
  | text p =>
    have hkind : (Scalar.kind (.text p) == .null) = false := by cases p <;> rfl
    rw [testOrFault, hkind]
    cases d <;> rfl

theorem shortcut?_eq : c.shortcut? d (first :: rest) = c.dotted? d first rest := by
  unfold shortcut? dotted?
  cases d with
  | h2 => rfl
  | postgres =>
    cases c.companion? with
    | none => cases c.tokenized <;> rfl
    | some column =>
      rcases first with _ | ⟨v⟩ | ⟨v, tokenize⟩ | ⟨v⟩ <;> cases rest <;> cases c.tokenized
      case text.wildcard.nil.false =>
        dsimp only [single?]
        by_cases hdots : v.toList.count '.' < 2
        · simp [hdots]
        · simp [hdots, Nat.not_lt.1 hdots]
      all_goals rfl

/-- Every term has a test, and there is a term. -/
theorem searchOrFault_eq (operand : Operand) :
    c.searchOrFault d operand (first :: rest) =
      (c.search d (operand == .notEq) first rest).mapError .problem := by
  unfold searchOrFault search
  cases c.fulltext with
  | false => rfl
  | true =>
    rw [if_pos rfl, if_pos rfl, shortcut?_eq]
    cases c.dotted? d first rest with
    | some found => rfl
    | none =>
      have htests : (first :: rest).mapM (c.testOrFault d (operand == .notEq)) =
          .ok ((first :: rest).map (c.searchTest d (operand == .notEq))) := by
        rw [testOrFault_eq]
        exact List.mapM_pure
      rw [htests]
      rfl

theorem takesWhole_eq {operand : Operand}
    (h : operand = .eq ∨ operand = .notEq ∨ operand = .oneOf) :
    c.takesWhole operand (first :: rest) = c.comparesWhole first rest := by
  have hsingle : ((single? (first :: rest)).map (·.kind == .exact)).getD false =
      (rest.isEmpty && first.kind == .exact) := by
    cases rest <;> rfl
  rw [comparesWhole, Bool.and_assoc, ← hsingle]
  rcases h with rfl | rfl | rfl <;> rfl

theorem any_null_iff {l : List Scalar} : l.any (·.kind == .null) = true ↔ .null ∈ l := by
  rw [List.any_eq_true]
  constructor
  · rintro ⟨s, hs, hkind⟩
    cases s with
    | null => exact hs
    | text p => cases p <;> cases hkind
  · exact fun h => ⟨.null, h, rfl⟩

/-- A set without the absent value has the texts of all its terms for members. -/
theorem wholeOrFault_oneOf :
    c.wholeOrFault d .oneOf (first :: rest) = (c.membership first rest).mapError .problem := by
  unfold wholeOrFault
  dsimp only
  by_cases hnull : .null ∈ first :: rest
  · rw [if_pos (any_null_iff.2 hnull), membership_eq_error_iff.2 ⟨hnull, rfl⟩]
    rfl
  · rw [if_neg (mt any_null_iff.1 hnull)]
    rw [List.mem_cons, not_or] at hnull
    obtain ⟨hfirst, hrest⟩ := hnull
    obtain ⟨values, hvalues⟩ := Option.ne_none_iff_exists'.1 (mt texts?_eq_none_iff.1 hrest)
    cases first with
    | null => exact absurd rfl hfirst
    | text p =>
      rw [filterMap_value?_cons_text, filterMap_value?_of_texts? hvalues]
      unfold membership
      rw [hvalues]
      rfl

theorem wholeOrFault_regex (s : Scalar) :
    c.wholeOrFault d .regex [s] = (c.regex d s).mapError .problem := by
  unfold wholeOrFault regex
  dsimp only
  cases c.regexColumn? d with
  | none => rfl
  | some column => cases s <;> rfl

/-- A single term that is compared as a whole. -/
theorem wholeOrFault_single {operand : Operand} (h : operand = .eq ∨ operand = .notEq)
    (s : Scalar) :
    c.wholeOrFault d operand [s] = .ok (c.whole (operand == .notEq) s) := by
  rcases h with rfl | rfl <;> cases s <;> rfl

/-- The terms of an operand that are compared as a whole, or searched for. -/
theorem wholeOrSearch_eq {operand : Operand} (h : operand = .eq ∨ operand = .notEq) (s : Scalar) :
    (if c.takesWhole operand [s] then c.wholeOrFault d operand [s]
      else c.searchOrFault d operand [s]) =
    (if c.comparesWhole s [] then .ok (c.whole (operand == .notEq) s)
      else c.search d (operand == .notEq) s []).mapError .problem := by
  rw [takesWhole_eq (h.imp_right .inl), wholeOrFault_single h, searchOrFault_eq]
  split <;> rfl

theorem fragmentOrFault_eq (operand : Operand) :
    c.fragmentOrFault d operand (first :: rest) =
      (c.fragment d operand first rest).mapError .problem := by
  cases operand with
  | any => exact searchOrFault_eq .any
  | oneOf =>
    have hchosen : c.fragmentOrFault d .oneOf (first :: rest) =
        if c.comparesWhole first rest then c.wholeOrFault d .oneOf (first :: rest)
        else c.searchOrFault d .oneOf (first :: rest) := by
      rw [← takesWhole_eq (.inr (.inr rfl))]
      rfl
    rw [hchosen, wholeOrFault_oneOf, searchOrFault_eq, fragment]
    split <;> rfl
  | eq =>
    cases rest with
    | nil => exact wholeOrSearch_eq (.inl rfl) first
    | cons second rest => rfl
  | notEq =>
    cases rest with
    | nil => exact wholeOrSearch_eq (.inr rfl) first
    | cons second rest => rfl
  | regex =>
    cases rest with
    | nil => exact wholeOrFault_regex first
    | cons second rest => rfl

end Column

namespace Predicate

/-- A compiler that can fall through comes to the outcome of every predicate. -/
theorem outcomeOrFault_eq (d : Dialect) (p : Predicate) :
    p.outcomeOrFault d = .ok (p.outcome d) := by
  unfold outcomeOrFault outcome
  cases d.column? p.field with
  | none => rfl
  | some c =>
    cases p.effective with
    | nil => rfl
    | cons first rest =>
      dsimp only
      rw [Column.fragmentOrFault_eq]
      cases c.fragment d p.operand first rest with
      | ok fragment => rfl
      | error problem => rfl

end Predicate

end SearchFilter
