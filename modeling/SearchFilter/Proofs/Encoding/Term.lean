import SearchFilter.Encoding.Model
import SearchFilter.Proofs.Collection
import SearchFilter.Proofs.Encoding.Parts

/-!
# Terms in JSON

A term is read back as it was written. What is read of a value has the kind that the value names,
and a collection is read from items that are terms of one kind and no collections themselves.

Main statements: `Term.ofJson_toJson` and `Term.standsFor_of_ofJson`.
-/

namespace SearchFilter

open Decoded Json

/-- The name of a kind in JSON. -/
def TermKind.key : TermKind → String
  | exact => "exact"
  | wildcard => "wildcard"
  | lenient => "lenient"
  | null => "null"
  | collection => "collection"

theorem TermKind.key_injective : TermKind.key.Injective := by
  intro k l h
  cases k <;> cases l <;> first | rfl | exact absurd h (by decide)

/-- What is read of the members of a kind is of that kind. -/
theorem Scalar.key_kind_of_ofMembers {kind : String} {members : List (String × Json)}
    {d : Decoded Scalar} {s : Scalar} (h : ofMembers kind members = some d) (hd : d = .ok s) :
    s.kind.key = kind := by
  subst hd
  unfold ofMembers at h
  split at h
  · next hkind =>
    obtain ⟨v?, -, h⟩ := bind_eq_ok_iff.1 (Option.some.inj h)
    obtain ⟨v, -, h⟩ := bind_eq_ok_iff.1 h
    cases h
    exact hkind.symm
  split at h
  · next hkind =>
    obtain ⟨v?, -, h⟩ := bind_eq_ok_iff.1 (Option.some.inj h)
    obtain ⟨v, -, h⟩ := bind_eq_ok_iff.1 h
    cases h
    exact hkind.symm
  split at h
  · next hkind =>
    obtain ⟨tokenize?, -, h⟩ := bind_eq_ok_iff.1 (Option.some.inj h)
    obtain ⟨v?, -, h⟩ := bind_eq_ok_iff.1 h
    obtain ⟨v, -, h⟩ := bind_eq_ok_iff.1 h
    obtain ⟨tokenize, -, h⟩ := bind_eq_ok_iff.1 h
    cases h
    exact hkind.symm
  split at h
  · next hkind =>
    cases Option.some.inj h
    exact hkind.symm
  · cases h

/-! ## Written terms -/

theorem Scalar.ofJson_toJson (s : Scalar) : Term.ofJson s.toJson = .ok (.scalar s) := by
  cases s with
  | null => rfl
  | text p => cases p <;> rfl

/-- No two scalars are written alike. -/
theorem Scalar.toJson_injective : Scalar.toJson.Injective := by
  intro s s' h
  have hread := s.ofJson_toJson
  rw [h, s'.ofJson_toJson] at hread
  cases hread
  rfl

theorem Term.ofEach_eq_mapM (l : List Json) : ofEach l = l.mapM ofJson := by
  induction l with
  | nil => rfl
  | cons j l ih => rw [ofEach, List.mapM_cons, ih]

theorem TermCollection.ofJson_array (items : List Json) :
    TermCollection.ofJson (.array items) =
      (do TermCollection.ofDecoded (← Term.ofEach items)) := by
  rw [Term.ofEach_eq_mapM]
  rfl

namespace Term

theorem ofEach_scalars (l : List Scalar) :
    ofEach (l.map Scalar.toJson) = .ok (l.map .scalar) := by
  rw [ofEach_eq_mapM]
  exact mapM_map_eq_ok fun s _ => s.ofJson_toJson

theorem ofJson_toJson (t : Term) : ofJson t.toJson = .ok t := by
  cases t with
  | scalar s => exact s.ofJson_toJson
  | collection c =>
    have hc : TermCollection.ofDecoded (c.members.map .scalar) = .ok c := by
      rw [TermCollection.ofDecoded, TermCollection.ofTerms?_members]
      rfl
    have hterms : ofTerms none [("kind", .string "collection"), ("terms", c.toJson)] =
        .ok (some c) :=
      bind_eq_ok_iff.2 ⟨_, ofEach_scalars c.members, bind_eq_ok_iff.2 ⟨c, hc, rfl⟩⟩
    exact bind_eq_ok_iff.2 ⟨some "collection", rfl, bind_eq_ok_iff.2 ⟨"collection", rfl,
      bind_eq_ok_iff.2 ⟨some c, hterms, rfl⟩⟩⟩

/-! ## Terms that are read -/

/-- The names of the parts of a collection. All terms have the first one. -/
def partNames : List String := ["kind", "terms"]

/-- A value that names itself a term of a kind. -/
def HasKind (kind : String) (j : Json) : Prop := HasPart partNames "kind" (.string kind) j

/-- A value that holds the terms of a collection. -/
def HasItems (items : List Json) (j : Json) : Prop := HasPart partNames "terms" (.array items) j

theorem hasKind_scalar (s : Scalar) : HasKind s.kind.key s.toJson := by
  cases s with
  | null => exact List.mem_cons_self
  | text p =>
    cases p with
    | exact v | lenient v => exact List.mem_cons_self
    | wildcard v tokenize => exact List.mem_cons_of_mem _ List.mem_cons_self

/-- What is written with terms is a collection of them. -/
theorem eq_members_of_hasItems {t : Term} {items : List Json} (h : HasItems items t.toJson) :
    ∃ c, t = .collection c ∧ items = c.members.map Scalar.toJson := by
  cases t with
  | scalar s =>
    cases s with
    | null => simp [HasItems, HasPart, toJson, Scalar.toJson] at h
    | text p => cases p <;> simp [HasItems, HasPart, toJson, Scalar.toJson, Pattern.toJson] at h
  | collection c =>
    exact ⟨c, rfl, by simpa [HasItems, HasPart, toJson, TermCollection.toJson] using h⟩

variable {j : Json} {t : Term} {kind : String} {items : List Json}
  {members : List (String × Json)}

/-- The member `terms` is read as a collection. -/
theorem ofTerms_eq_once (found : Option TermCollection) (members : List (String × Json)) :
    ofTerms found members = once "terms" TermCollection.ofJson found members := by
  induction members generalizing found with
  | nil => rfl
  | cons member rest ih =>
    obtain ⟨name, value⟩ := member
    unfold ofTerms once
    split
    · cases found with
      | some c => rfl
      | none =>
        cases value with
        | array items => simp only [TermCollection.ofJson_array, bind_assoc, ih]
        | null | bool | number | string | object => rfl
    · exact ih found

/-- A term that stands for a value: it is of the kind that the value names, and if it is a
collection, it is that of the terms that the value holds. -/
structure StandsFor (t : Term) (j : Json) : Prop where
  kind : ∀ kind, HasKind kind j → t.kind.key = kind
  items : t.kind = .collection → ∀ items, HasItems items j →
    ∃ c, TermCollection.ofJson (.array items) = .ok c ∧ t = .collection c

theorem standsFor_scalar {s : Scalar} (h : ∀ kind, HasKind kind j → s.kind.key = kind) :
    StandsFor (.scalar s) j where
  kind := h
  items hkind := absurd hkind s.kind_ne_collection

theorem standsFor_object (h : ofJson (.object members) = .ok t) :
    t.StandsFor (.object members) := by
  unfold ofJson at h
  obtain ⟨kind?, hmember, hterm⟩ := bind_eq_ok_iff.1 h
  obtain ⟨kind, hkind?, hterm⟩ := bind_eq_ok_iff.1 hterm
  rw [require_eq_ok_iff] at hkind?
  have hkind : ∀ kind', HasKind kind' (.object members) → kind = kind' := by
    intro kind' hkind'
    obtain ⟨_, ha, hstring⟩ := member_of_mem hkind' hmember
    cases hstring
    exact Option.some.inj (hkind?.symm.trans ha)
  split at hterm
  · next d hd =>
    obtain ⟨s, hs, hterm⟩ := bind_eq_ok_iff.1 hterm
    cases hterm
    have hkey := Scalar.key_kind_of_ofMembers hd hs
    exact standsFor_scalar fun kind' hkind' => hkey.trans (hkind kind' hkind')
  · split at hterm
    · next hcollection =>
      obtain ⟨c?, hterms, hterm⟩ := bind_eq_ok_iff.1 hterm
      obtain ⟨c, hc, hterm⟩ := bind_eq_ok_iff.1 hterm
      rw [require_eq_ok_iff] at hc
      cases hterm
      refine ⟨fun kind' hkind' => hcollection.symm.trans (hkind kind' hkind'),
        fun _ items hitems => ?_⟩
      rw [ofTerms_eq_once] at hterms
      obtain ⟨-, c', hc', heq⟩ := exists_of_once hterms hitems
      cases hc.symm.trans heq
      exact ⟨c, hc', rfl⟩
    · cases hterm

theorem standsFor_array (h : ofJson (.array items) = .ok t) : t.StandsFor (.array items) := by
  unfold ofJson at h
  split at h
  · next heq => cases heq
  · next kind items heq =>
    cases heq
    have hkind : ∀ kind', HasKind kind' (.array (.string kind :: items)) → kind = kind' := by
      intro kind' hkind'
      rcases List.mem_cons.1 hkind' with heq | hlater
      · cases heq
        rfl
      · exact absurd (List.of_mem_zip hlater).1 (by decide)
    split at h
    · next d hd =>
      obtain ⟨s, hs, hterm⟩ := bind_eq_ok_iff.1 h
      cases hterm
      obtain ⟨d', hd', rfl⟩ := Option.map_eq_some_iff.1 hd
      obtain ⟨s', hs', hs⟩ := bind_eq_ok_iff.1 hs
      split at hs
      · cases hs
        have hkey := Scalar.key_kind_of_ofMembers hd' hs'
        exact standsFor_scalar fun kind' hkind' => hkey.trans (hkind kind' hkind')
      · cases hs
    · split at h
      · next hcollection =>
        split at h
        · next items terms rest hnone =>
          obtain ⟨ts, hts, hterm⟩ := bind_eq_ok_iff.1 h
          obtain ⟨c, hc, hterm⟩ := bind_eq_ok_iff.1 hterm
          split at hterm
          · cases hterm
            refine ⟨fun kind' hkind' => hcollection.symm.trans (hkind kind' hkind'),
              fun _ items hitems => ?_⟩
            have hterms : items = terms := by
              simpa [HasItems, HasPart, partNames] using hitems
            refine ⟨c, ?_, rfl⟩
            rw [hterms, TermCollection.ofJson_array]
            exact bind_eq_ok_iff.2 ⟨ts, hts, hc⟩
          · cases hterm
        · cases h
      · cases h
  · cases h

theorem standsFor_of_ofJson (h : ofJson j = .ok t) : t.StandsFor j := by
  cases j with
  | object members => exact standsFor_object h
  | array items => exact standsFor_array h
  | null | bool | number | string => cases h

end Term

end SearchFilter
