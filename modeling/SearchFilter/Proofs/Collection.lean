import Mathlib.Data.List.Basic
import SearchFilter.Term

/-!
# Collections from their members

A collection is built again from its own members: they are of one kind, and none is there twice.

Main statement: `TermCollection.ofTerms?_members`.
-/

namespace SearchFilter

theorem firstOccurrences_of_nodup {α : Type} [DecidableEq α] {l : List α} (h : l.Nodup) :
    firstOccurrences l = l := by
  induction l with
  | nil => rfl
  | cons a l ih =>
    obtain ⟨ha, hl⟩ := List.nodup_cons.1 h
    rw [firstOccurrences, ih hl, List.filter_eq_self.2]
    intro b hb
    exact decide_eq_true fun hba => ha (hba ▸ hb)

theorem Scalar.kind_ne_collection (s : Scalar) : s.kind ≠ .collection := by
  cases s with
  | null => exact nofun
  | text p => cases p <;> exact nofun

namespace TermCollection

theorem ofKind?_map_scalar {k : TermKind} {l : List Scalar} (h : ∀ s ∈ l, s.kind = k) :
    ofKind? k (l.map .scalar) = .ok ⟨l, h⟩ := by
  induction l with
  | nil => rfl
  | cons s l ih =>
    obtain ⟨hs, hl⟩ := List.forall_mem_cons.1 h
    rw [List.map_cons, ofKind?, dif_pos hs, ih hl]

/-- A collection is what its members come to. -/
theorem ofTerms?_members (c : TermCollection) : ofTerms? (c.members.map .scalar) = .ok c := by
  obtain ⟨members, hsame, hnodup⟩ := c
  cases members with
  | nil => rfl
  | cons s l =>
    have hkind : ∀ a ∈ s :: l, a.kind = s.kind := fun a ha => hsame a ha s List.mem_cons_self
    have hmembers : ofKind? s.kind (.scalar s :: l.map .scalar) = .ok ⟨s :: l, hkind⟩ :=
      ofKind?_map_scalar hkind
    simp only [List.map_cons, ofTerms?, hmembers, ofScalars, firstOccurrences_of_nodup hnodup]

/-- Terms of which a collection is made are no collections, and they are of one kind. -/
theorem kind_eq_of_ofTerms? {ts : List Term} {c : TermCollection} (h : ofTerms? ts = .ok c) :
    (∀ t ∈ ts, t.kind ≠ .collection) ∧ ∀ t ∈ ts, ∀ u ∈ ts, t.kind = u.kind := by
  obtain ⟨l, rfl, hmembers⟩ := members_ofTerms? h
  have hmem : ∀ s, s ∈ c.members ↔ s ∈ l := fun s => by rw [hmembers, mem_firstOccurrences]
  simp only [List.forall_mem_map]
  constructor
  · exact fun s _ => s.kind_ne_collection
  · intro s hs s' hs'
    exact c.same_kind s ((hmem s).2 hs) s' ((hmem s').2 hs')

end TermCollection

end SearchFilter
