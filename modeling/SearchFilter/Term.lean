import SearchFilter.Text.Basic

/-!
# Search terms

A term is what a predicate compares its field with: a text to be found in one of three ways, the
absence of a value, or a collection of such. A collection holds no collection, mixes no kinds and
lists nothing twice, and these rules are part of its type.

Main statements: `TermCollection.ofTerms?` keeps the first occurrences, in order
(`members_ofTerms?`).
-/

namespace SearchFilter

/-- The kind of a term, whatever its value. -/
inductive TermKind where
  | exact
  | wildcard
  | lenient
  | null
  | collection
  deriving DecidableEq, Repr

namespace TermKind

def title : TermKind → String
  | exact => "Exact"
  | wildcard => "Wildcard"
  | lenient => "Lenient"
  | null => "Null"
  | collection => "Collection"

end TermKind

/-- A text to be found. -/
inductive Pattern where
  /-- The value as it stands. -/
  | exact (value : String)
  /-- The value, with `*` for any text; with `tokenize`, also its tokens one after the other. -/
  | wildcard (value : String) (tokenize : Bool)
  /-- The value or its tokens one after the other. -/
  | lenient (value : String)
  deriving DecidableEq, Repr

namespace Pattern

def value : Pattern → String
  | exact v | wildcard v _ | lenient v => v

def kind : Pattern → TermKind
  | exact _ => .exact
  | wildcard _ _ => .wildcard
  | lenient _ => .lenient

/-- Whether a pattern restricts nothing. In a wildcard, stars count as white space. -/
def isBlank : Pattern → Bool
  | wildcard v _ => v.toList.all fun c => c == '*' || isSpace c
  | exact v | lenient v => SearchFilter.isBlank v

end Pattern

/-- A term that is no collection. -/
inductive Scalar where
  /-- The absent value. -/
  | null
  | text (pattern : Pattern)
  deriving DecidableEq, Repr

namespace Scalar

def kind : Scalar → TermKind
  | null => .null
  | text p => p.kind

def value? : Scalar → Option String
  | null => none
  | text p => some p.value

/-- The absent value is a value like any other: it is never blank. -/
def isBlank : Scalar → Bool
  | null => false
  | text p => p.isBlank

end Scalar

/-- Terms of one kind without repetitions, in order. -/
structure TermCollection where
  members : List Scalar
  same_kind : ∀ a ∈ members, ∀ b ∈ members, a.kind = b.kind
  nodup : members.Nodup
  deriving DecidableEq

/-- What a predicate compares its field with. -/
inductive Term where
  | scalar (s : Scalar)
  | collection (c : TermCollection)
  deriving DecidableEq

namespace Term

def exact (value : String) : Term := .scalar (.text (.exact value))

def wildcard (value : String) (tokenize : Bool) : Term := .scalar (.text (.wildcard value tokenize))

def lenient (value : String) : Term := .scalar (.text (.lenient value))

def null : Term := .scalar .null

def kind : Term → TermKind
  | scalar s => s.kind
  | collection _ => .collection

/-- The text of a term that has exactly one. -/
def value? : Term → Option String
  | scalar s => s.value?
  | collection _ => none

def isBlank : Term → Bool
  | scalar s => s.isBlank
  | collection _ => false

/-- The scalars a term consists of. -/
def members : Term → List Scalar
  | scalar s => [s]
  | collection c => c.members

end Term

/-! ## Building collections -/

/-- The first occurrence of each element, in order. -/
def firstOccurrences {α : Type} [DecidableEq α] : List α → List α
  | [] => []
  | a :: rest => a :: (firstOccurrences rest).filter (· ≠ a)

section
variable {α : Type} [DecidableEq α]

@[simp] theorem mem_firstOccurrences {l : List α} {a : α} : a ∈ firstOccurrences l ↔ a ∈ l := by
  induction l with
  | nil => simp [firstOccurrences]
  | cons b rest ih => by_cases h : a = b <;> simp [firstOccurrences, h, ih]

theorem nodup_firstOccurrences (l : List α) : (firstOccurrences l).Nodup := by
  induction l with
  | nil => simp [firstOccurrences]
  | cons b rest ih => exact List.nodup_cons.2 ⟨by simp, List.Pairwise.filter _ ih⟩

end

/-- Why a list of terms is no collection. -/
inductive CollectionError where
  /-- A member is of another kind than the first. -/
  | mixedKinds (expected found : TermKind)
  /-- A member is itself a collection. -/
  | nested
  deriving DecidableEq, Repr

def CollectionError.message : CollectionError → String
  | mixedKinds expected found =>
    s!"term collection mixes {expected.title} and {found.title} terms"
  | nested => "term collections cannot be nested"

namespace TermCollection

/-- The scalars of a list of terms, all of kind `k`; the first member that is a collection or of
another kind is the error. -/
def ofKind? (k : TermKind) :
    List Term → Except CollectionError { l : List Scalar // ∀ s ∈ l, s.kind = k }
  | [] => .ok ⟨[], by simp⟩
  | .collection _ :: _ => .error .nested
  | .scalar s :: rest =>
    if h : s.kind = k then
      match ofKind? k rest with
      | .ok ⟨l, hl⟩ => .ok ⟨s :: l, by simpa [h] using hl⟩
      | .error e => .error e
    else .error (.mixedKinds k s.kind)

/-- The collection of scalars of one kind. -/
def ofScalars (l : List Scalar) (same : ∀ a ∈ l, ∀ b ∈ l, a.kind = b.kind) : TermCollection where
  members := firstOccurrences l
  same_kind a ha b hb := same a (mem_firstOccurrences.1 ha) b (mem_firstOccurrences.1 hb)
  nodup := nodup_firstOccurrences l

/-- The collection of the given terms, repetitions dropped. The first member sets the kind. -/
def ofTerms? : List Term → Except CollectionError TermCollection
  | [] => .ok ⟨[], by simp, by simp⟩
  | .collection _ :: _ => .error .nested
  | .scalar s :: rest =>
    match ofKind? s.kind (.scalar s :: rest) with
    | .ok ⟨l, hl⟩ => .ok (ofScalars l fun a ha b hb => (hl a ha).trans (hl b hb).symm)
    | .error e => .error e

/-- The collection of exact texts. -/
def ofValues (values : List String) : TermCollection :=
  ofScalars (values.map fun v => .text (.exact v)) (by
    simp only [List.mem_map]
    rintro _ ⟨v, -, rfl⟩ _ ⟨w, -, rfl⟩
    rfl)

theorem ofKind?_ok {k : TermKind} {ts : List Term}
    {l : { l : List Scalar // ∀ s ∈ l, s.kind = k }} (h : ofKind? k ts = .ok l) :
    ts = l.1.map .scalar := by
  induction ts generalizing l with
  | nil => simp only [ofKind?, Except.ok.injEq] at h; subst h; rfl
  | cons t rest ih =>
    cases t with
    | collection c => simp [ofKind?] at h
    | scalar s =>
      simp only [ofKind?] at h
      split at h
      · split at h
        · next heq =>
          simp only [Except.ok.injEq] at h
          subst h
          simp [ih heq]
        · simp at h
      · simp at h

theorem members_ofTerms? {ts : List Term} {c : TermCollection} (h : ofTerms? ts = .ok c) :
    ∃ l : List Scalar, ts = l.map .scalar ∧ c.members = firstOccurrences l := by
  match ts with
  | [] => exact ⟨[], rfl, by simp only [ofTerms?, Except.ok.injEq] at h; subst h; rfl⟩
  | .collection _ :: _ => simp [ofTerms?] at h
  | .scalar s :: rest =>
    simp only [ofTerms?] at h
    split at h
    · next l hl heq =>
      simp only [Except.ok.injEq] at h
      subst h
      exact ⟨l, ofKind?_ok heq, rfl⟩
    · simp at h

end TermCollection

namespace Term

/-- The term that stands for several terms. -/
def ofTerms? (terms : List Term) : Except CollectionError Term :=
  (TermCollection.ofTerms? terms).map .collection

/-- The term that stands for several exact texts. -/
def exactValues (values : List String) : Term := .collection (.ofValues values)

end Term

end SearchFilter
