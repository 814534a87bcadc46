import Mathlib.Data.List.Nodup
import SearchFilter.Proofs.Encoding.Term

/-!
# Expressions in JSON

An expression is read back as it was written. A clause without children and a collection that is
no collection of terms of one kind are errors wherever they stand in a JSON value.

Main statement: `Expression.ofJson_toJson_and_error_of_faulty`.
-/

namespace SearchFilter

open Decoded Json

/-! ## Written expressions -/

theorem Field.ofJson_toJson (f : Field) : ofJson f.toJson = .ok f := by
  cases f <;> decide

theorem Operand.ofJson_toJson (o : Operand) : ofJson o.toJson = .ok o := by
  cases o <;> decide

theorem Connective.ofJson_toJson (op : Connective) : ofJson op.toJson = .ok op := by
  cases op <;> decide

namespace Predicate

/-- The names of the parts of a predicate. -/
def partNames : List String := ["field", "operand", "term"]

theorem ofJson_toJson (p : Predicate) : ofJson p.toJson = .ok p := by
  have hfield : (Field.ofJson p.field.toJson).map some = .ok (some p.field) :=
    map_eq_ok_iff.2 ⟨p.field, p.field.ofJson_toJson, rfl⟩
  have hoperand : (Operand.ofJson p.operand.toJson).map some = .ok (some p.operand) :=
    map_eq_ok_iff.2 ⟨p.operand, p.operand.ofJson_toJson, rfl⟩
  have hterm : (Term.ofJson p.term.toJson).map some = .ok (some p.term) :=
    map_eq_ok_iff.2 ⟨p.term, p.term.ofJson_toJson, rfl⟩
  exact bind_eq_ok_iff.2 ⟨_, hfield, bind_eq_ok_iff.2 ⟨_, hoperand,
    bind_eq_ok_iff.2 ⟨_, hterm, rfl⟩⟩⟩

/-- The term of a predicate that is read is read too. -/
theorem exists_term_of_ofJson {j value : Json} {p : Predicate} (h : ofJson j = .ok p)
    (hterm : HasPart partNames "term" value j) : ∃ t, Term.ofJson value = .ok t := by
  obtain ⟨members, hmembers, hparts⟩ := exists_of_asParts h
  obtain ⟨_, -, hlater⟩ := bind_eq_ok_iff.1 hmembers
  obtain ⟨_, -, hlater⟩ := bind_eq_ok_iff.1 hlater
  obtain ⟨_, hmember, -⟩ := bind_eq_ok_iff.1 hlater
  obtain ⟨t, -, ht⟩ := member_of_mem (hparts "term" value hterm) hmember
  exact ⟨t, ht⟩

end Predicate

namespace Expression

theorem toJson_clause (op : Connective) (first : Expression) (rest : List Expression) :
    toJson (.clause op first rest) =
      .object [("clause", clauseJson op ((first :: rest).map toJson))] := by
  rw [toJson, Formula.fold_clause]
  rfl

theorem ofEach_eq_mapM (l : List Json) : ofEach l = l.mapM ofJson := by
  induction l with
  | nil => rfl
  | cons j l ih => rw [ofEach, List.mapM_cons, ih]

theorem ofJson_toJson (e : Expression) : ofJson e.toJson = .ok e := by
  induction e using Formula.induct with
  | atom p => exact map_eq_ok_iff.2 ⟨p, p.ofJson_toJson, rfl⟩
  | clause op first rest ihfirst ihrest =>
    have heach : ofEach ((first :: rest).map toJson) = .ok (first :: rest) := by
      rw [ofEach_eq_mapM, mapM_map_eq_ok (List.forall_mem_cons.2 ⟨ihfirst, ihrest⟩), List.map_id']
    have hop : (Connective.ofJson op.toJson).map some = .ok (some op) :=
      map_eq_ok_iff.2 ⟨op, op.ofJson_toJson, rfl⟩
    rw [toJson_clause]
    exact bind_eq_ok_iff.2 ⟨some (first :: rest), bind_eq_ok_iff.2 ⟨_, heach, rfl⟩,
      bind_eq_ok_iff.2 ⟨some op, hop, rfl⟩⟩

/-! ## Places -/

/-- The names of the parts of a clause. -/
def clausePartNames : List String := ["operand", "children"]

variable {root j clause : Json} {items : List Json} {e : Expression}

/-- A value that stands where an expression is read when `root` is. -/
inductive At (root : Json) : Json → Prop
  | root : At root root
  | child {clause item : Json} {items : List Json}
      (hclause : At root (.object [("clause", clause)]))
      (hitems : HasPart clausePartNames "children" (.array items) clause) (hitem : item ∈ items) :
      At root item

/-- The children of a clause that stands in `root`. -/
def HoldsClause (root : Json) (items : List Json) : Prop :=
  ∃ clause, At root (.object [("clause", clause)]) ∧
    HasPart clausePartNames "children" (.array items) clause

/-- A value that stands where a term is read when `root` is, as the term of a predicate or in a
collection. -/
inductive TermAt (root : Json) : Json → Prop
  | predicate {p value : Json} (hp : At root (.object [("predicate", p)]))
      (hvalue : HasPart Predicate.partNames "term" value p) : TermAt root value
  | item {value item : Json} {items : List Json} (hvalue : TermAt root value)
      (hkind : Term.HasKind "collection" value) (hitems : Term.HasItems items value)
      (hitem : item ∈ items) : TermAt root item

/-- The terms of a collection that stands in `root`. -/
def HoldsCollection (root : Json) (items : List Json) : Prop :=
  ∃ value, TermAt root value ∧ Term.HasKind "collection" value ∧ Term.HasItems items value

/-- A value with a clause of nothing, a collection in a collection or a collection of terms of two
kinds in it. -/
inductive Faulty (root : Json) : Prop
  | emptyClause (h : HoldsClause root [])
  | nested {items : List Json} {item : Json} (h : HoldsCollection root items) (hitem : item ∈ items)
      (hkind : Term.HasKind "collection" item)
  | mixed {items : List Json} {item other : Json} {kind kind' : String}
      (h : HoldsCollection root items) (hitem : item ∈ items) (hother : other ∈ items)
      (hkind : Term.HasKind kind item) (hkind' : Term.HasKind kind' other) (hne : kind ≠ kind')

/-- A value in which every clause has children, and every collection has terms of one kind, none
of them a collection and none twice. -/
structure WellFormed (root : Json) : Prop where
  clause : ∀ items, HoldsClause root items → items ≠ []
  kind : ∀ items, HoldsCollection root items →
    ∃ kind ≠ "collection", ∀ item ∈ items, Term.HasKind kind item
  nodup : ∀ items, HoldsCollection root items → items.Nodup

/-! ## Expressions that are read -/

/-- The member `children` is read as a list of expressions. -/
theorem ofChildren_eq_once (found : Option (List Expression)) (members : List (String × Json)) :
    ofChildren found members = once "children" (asList ofJson) found members := by
  induction members generalizing found with
  | nil => rfl
  | cons member rest ih =>
    obtain ⟨name, value⟩ := member
    unfold ofChildren once
    split
    · cases found with
      | some es => rfl
      | none =>
        cases value with
        | array items => simp only [ofEach_eq_mapM, asList_array, ih]
        | null | bool | number | string | object => rfl
    · exact ih found

theorem ne_nil_of_ofChildren? {op : Connective} {es : List Expression}
    (h : (Formula.ofChildren? op es).mapError DecodeError.emptyClause = .ok e) : es ≠ [] := by
  rintro rfl
  cases h

/-- The children of a clause that is read are read too, and there is one at least. -/
theorem exists_children_of_ofJson (h : ofJson (.object [("clause", clause)]) = .ok e)
    (hitems : HasPart clausePartNames "children" (.array items) clause) :
    ∃ es, items.mapM ofJson = .ok es ∧ es ≠ [] := by
  unfold ofJson at h
  rw [if_neg (by decide), if_pos rfl] at h
  split at h
  · obtain ⟨es?, hchildren, h⟩ := bind_eq_ok_iff.1 h
    rw [ofChildren_eq_once] at hchildren
    obtain ⟨-, es, hes, rfl⟩ := exists_of_once hchildren hitems
    rw [asList_array] at hes
    obtain ⟨op?, -, h⟩ := bind_eq_ok_iff.1 h
    split at h
    · next heq =>
      cases heq
      exact ⟨es, hes, ne_nil_of_ofChildren? h⟩
    · cases h
  · next op items' rest =>
    obtain ⟨op, -, h⟩ := bind_eq_ok_iff.1 h
    obtain ⟨es, hes, h⟩ := bind_eq_ok_iff.1 h
    have hitems' : items = items' := by
      simpa [HasPart, clausePartNames] using hitems
    split at h
    · rw [ofEach_eq_mapM, ← hitems'] at hes
      exact ⟨es, hes, ne_nil_of_ofChildren? h⟩
    · cases h
  · cases h

theorem exists_of_at (h : ofJson root = .ok e) (hj : At root j) : ∃ e', ofJson j = .ok e' := by
  induction hj with
  | root => exact ⟨e, h⟩
  | child _ hitems hitem ih =>
    obtain ⟨e', he'⟩ := ih
    obtain ⟨es, hes, -⟩ := exists_children_of_ofJson he' hitems
    obtain ⟨e'', -, he''⟩ := (exists_of_mapM_eq_ok hes).1 _ hitem
    exact ⟨e'', he''⟩

end Expression

/-- The items of a collection that is read are read as terms that make up a collection. -/
theorem Term.exists_items_of_ofJson {j : Json} {t : Term} {items : List Json}
    (h : ofJson j = .ok t) (hkind : HasKind "collection" j) (hitems : HasItems items j) :
    ∃ ts c, items.mapM ofJson = .ok ts ∧ TermCollection.ofTerms? ts = .ok c := by
  have ht := standsFor_of_ofJson h
  have hcollection : t.kind = .collection := TermKind.key_injective (ht.kind _ hkind)
  obtain ⟨c, hc, -⟩ := ht.items hcollection items hitems
  obtain ⟨ts, hts, hc⟩ := bind_eq_ok_iff.1 hc
  rw [asList_array] at hts
  exact ⟨ts, c, hts, mapError_eq_ok_iff.1 hc⟩

namespace Expression

variable {root j clause : Json} {items : List Json} {e : Expression}

theorem exists_of_termAt (h : ofJson root = .ok e) (hj : TermAt root j) :
    ∃ t, Term.ofJson j = .ok t := by
  induction hj with
  | predicate hp hvalue =>
    obtain ⟨e', he'⟩ := exists_of_at h hp
    obtain ⟨p, hp', -⟩ := map_eq_ok_iff.1 he'
    exact Predicate.exists_term_of_ofJson hp' hvalue
  | item _ hkind hitems hitem ih =>
    obtain ⟨t, ht⟩ := ih
    obtain ⟨ts, c, hts, -⟩ := Term.exists_items_of_ofJson ht hkind hitems
    obtain ⟨u, -, hu⟩ := (exists_of_mapM_eq_ok hts).1 _ hitem
    exact ⟨u, hu⟩

theorem exists_of_holdsCollection (h : ofJson root = .ok e) (hitems : HoldsCollection root items) :
    ∃ ts c, items.mapM Term.ofJson = .ok ts ∧ TermCollection.ofTerms? ts = .ok c := by
  obtain ⟨value, hvalue, hkind, hitems⟩ := hitems
  obtain ⟨t, ht⟩ := exists_of_termAt h hvalue
  exact Term.exists_items_of_ofJson ht hkind hitems

theorem not_faulty_of_ofJson (h : ofJson root = .ok e) : ¬ Faulty root := by
  rintro (⟨clause, hclause, hitems⟩ | ⟨hcollection, hitem, hkind⟩ |
    ⟨hcollection, hitem, hother, hkind, hkind', hne⟩)
  · obtain ⟨e', he'⟩ := exists_of_at h hclause
    obtain ⟨es, hes, hne⟩ := exists_children_of_ofJson he' hitems
    cases hes
    exact hne rfl
  · obtain ⟨ts, c, hts, hc⟩ := exists_of_holdsCollection h hcollection
    obtain ⟨u, hmem, hu⟩ := (exists_of_mapM_eq_ok hts).1 _ hitem
    have hcoll : u.kind = .collection :=
      TermKind.key_injective ((Term.standsFor_of_ofJson hu).kind _ hkind)
    exact (TermCollection.kind_eq_of_ofTerms? hc).1 u hmem hcoll
  · obtain ⟨ts, c, hts, hc⟩ := exists_of_holdsCollection h hcollection
    obtain ⟨u, hmem, hu⟩ := (exists_of_mapM_eq_ok hts).1 _ hitem
    obtain ⟨u', hmem', hu'⟩ := (exists_of_mapM_eq_ok hts).1 _ hother
    have hsame : u.kind = u'.kind := (TermCollection.kind_eq_of_ofTerms? hc).2 u hmem u' hmem'
    rw [← (Term.standsFor_of_ofJson hu).kind _ hkind,
      ← (Term.standsFor_of_ofJson hu').kind _ hkind', hsame] at hne
    exact hne rfl

/-! ## What is written is well formed -/

theorem eq_atom_of_toJson {p : Json} (h : .object [("predicate", p)] = e.toJson) :
    ∃ q, e = .atom q ∧ p = q.toJson := by
  cases e with
  | atom q =>
    cases h
    exact ⟨q, rfl, rfl⟩
  | clause op first rest => simp [toJson_clause] at h

theorem eq_clause_of_toJson (h : .object [("clause", clause)] = e.toJson) :
    ∃ op first rest, e = .clause op first rest ∧
      clause = clauseJson op ((first :: rest).map toJson) := by
  cases e with
  | atom q => simp [toJson] at h
  | clause op first rest =>
    rw [toJson_clause] at h
    cases h
    exact ⟨op, first, rest, rfl, rfl⟩

theorem eq_children_of_hasPart {op : Connective} {children : List Json}
    (h : HasPart clausePartNames "children" (.array items) (clauseJson op children)) :
    items = children := by
  simpa [HasPart, clauseJson] using h

theorem exists_toJson_of_at (hj : At e.toJson j) : ∃ e' : Expression, j = e'.toJson := by
  induction hj with
  | root => exact ⟨e, rfl⟩
  | child _ hitems hitem ih =>
    obtain ⟨e', he'⟩ := ih
    obtain ⟨op, first, rest, -, rfl⟩ := eq_clause_of_toJson he'
    rw [eq_children_of_hasPart hitems] at hitem
    obtain ⟨child, -, rfl⟩ := List.mem_map.1 hitem
    exact ⟨child, rfl⟩

theorem exists_toJson_of_termAt (hj : TermAt e.toJson j) : ∃ t : Term, j = t.toJson := by
  induction hj with
  | predicate hp hvalue =>
    obtain ⟨e', he'⟩ := exists_toJson_of_at hp
    obtain ⟨p, -, rfl⟩ := eq_atom_of_toJson he'
    exact ⟨p.term, by simpa [HasPart, Predicate.toJson] using hvalue⟩
  | item _ _ hitems hitem ih =>
    obtain ⟨t, rfl⟩ := ih
    obtain ⟨c, rfl, rfl⟩ := Term.eq_members_of_hasItems hitems
    obtain ⟨s, -, rfl⟩ := List.mem_map.1 hitem
    exact ⟨.scalar s, rfl⟩

theorem exists_members_of_holdsCollection (h : HoldsCollection e.toJson items) :
    ∃ c : TermCollection, items = c.members.map Scalar.toJson := by
  obtain ⟨value, hvalue, -, hitems⟩ := h
  obtain ⟨t, rfl⟩ := exists_toJson_of_termAt hvalue
  obtain ⟨c, -, hitems⟩ := Term.eq_members_of_hasItems hitems
  exact ⟨c, hitems⟩

theorem wellFormed_toJson (e : Expression) : WellFormed e.toJson where
  clause items h := by
    obtain ⟨clause, hclause, hitems⟩ := h
    obtain ⟨e', he'⟩ := exists_toJson_of_at hclause
    obtain ⟨op, first, rest, -, rfl⟩ := eq_clause_of_toJson he'
    rw [eq_children_of_hasPart hitems]
    exact List.cons_ne_nil _ _
  kind items h := by
    obtain ⟨c, rfl⟩ := exists_members_of_holdsCollection h
    obtain ⟨members, hsame, -⟩ := c
    simp only [List.forall_mem_map]
    cases members with
    | nil => exact ⟨"null", by decide, nofun⟩
    | cons s l =>
      have hne : s.kind.key ≠ "collection" := fun hkey =>
        s.kind_ne_collection (TermKind.key_injective hkey)
      refine ⟨s.kind.key, hne, fun s' hs' => ?_⟩
      rw [hsame s List.mem_cons_self s' hs']
      exact Term.hasKind_scalar s'
  nodup items h := by
    obtain ⟨c, rfl⟩ := exists_members_of_holdsCollection h
    exact c.nodup.map Scalar.toJson_injective

/-- The array form of a clause has the same places. -/
example : Faulty (.object [("clause", .array [.string "OR", .array []])]) :=
  .emptyClause ⟨_, .root, List.mem_cons_of_mem _ List.mem_cons_self⟩

end Expression

end SearchFilter
