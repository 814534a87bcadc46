import SearchFilter.Encoding.Decode
import SearchFilter.Proofs.Except

/-!
# The parts of structures

A structure is written as an object or as the array of its parts. Where it can be decoded, every
part that it has under a known name has been decoded too, and no other one of that name is there.

Main statements: `Json.member_of_mem`, `Json.exists_of_once` and `Json.exists_of_asParts`.
-/

namespace SearchFilter

namespace Decoded

variable {α : Type}

theorem require_eq_ok_iff {a? : Option α} {a : α} : require a? = .ok a ↔ a? = some a := by
  cases a? <;> simp [require]

end Decoded

namespace Json

open Decoded

variable {α : Type} {names : List String} {name : String} {value : Json}
  {members : List (String × Json)}

/-- A part of a structure by its name. In an array the parts stand in the order of `names`. -/
def HasPart (names : List String) (name : String) (value : Json) : Json → Prop
  | .object members => (name, value) ∈ members
  | .array items => (name, value) ∈ names.zip items
  | _ => False

theorem member_of_mem {decode : Json → Decoded α} {a? : Option α}
    (hmem : (name, value) ∈ members) (h : member name decode members = .ok a?) :
    ∃ a, a? = some a ∧ decode value = .ok a := by
  have hvalue : (name, value) ∈ members.filter (·.1 == name) :=
    List.mem_filter.2 ⟨hmem, BEq.rfl⟩
  unfold member at h
  split at h
  · next hnil =>
    rw [hnil] at hvalue
    cases hvalue
  · next other j hone =>
    rw [hone, List.mem_singleton, Prod.mk.injEq] at hvalue
    obtain ⟨a, ha, rfl⟩ := map_eq_ok_iff.1 h
    exact ⟨a, rfl, hvalue.2 ▸ ha⟩
  · cases h

theorem asList_array (decode : Json → Decoded α) (items : List Json) :
    asList decode (.array items) = items.mapM decode := rfl

/-- The value of a member that must not come twice, decoded where it stands; `found` is what an
earlier member of that name gave. -/
def once (name : String) (decode : Json → Decoded α) (found : Option α) :
    List (String × Json) → Decoded (Option α)
  | [] => .ok found
  | (other, value) :: rest =>
    if other = name then
      match found with
      | none => do once name decode (some (← decode value)) rest
      | some _ => .error .form
    else once name decode found rest

variable {decode : Json → Decoded α} {found a? : Option α}

theorem eq_some_of_once {a : α} (h : once name decode (some a) members = .ok a?) :
    a? = some a := by
  induction members with
  | nil =>
    cases h
    rfl
  | cons member rest ih =>
    unfold once at h
    split at h
    · cases h
    · exact ih h

/-- Every member of the name has been decoded, and there is only one. -/
theorem exists_of_once (h : once name decode found members = .ok a?)
    (hmem : (name, value) ∈ members) :
    found = none ∧ ∃ a, decode value = .ok a ∧ a? = some a := by
  induction members generalizing found with
  | nil => cases hmem
  | cons member rest ih =>
    obtain ⟨other, otherValue⟩ := member
    unfold once at h
    rw [List.mem_cons, Prod.mk.injEq] at hmem
    split at h
    · next hother =>
      cases found with
      | some a => cases h
      | none =>
        obtain ⟨a, ha, hrest⟩ := bind_eq_ok_iff.1 h
        rcases hmem with ⟨-, hvalue⟩ | hmem
        · exact ⟨rfl, a, hvalue ▸ ha, eq_some_of_once hrest⟩
        · cases (ih hrest hmem).1
    · next hother =>
      rcases hmem with ⟨hname, -⟩ | hmem
      · exact absurd hname.symm hother
      · exact ih h hmem

/-- A structure that is decoded from parts has them all as members. -/
theorem exists_of_asParts {decode : List (String × Json) → Decoded α} {a : α} {j : Json}
    (h : asParts names decode j = .ok a) :
    ∃ members, decode members = .ok a ∧
      ∀ name value, HasPart names name value j → (name, value) ∈ members := by
  cases j with
  | object members => exact ⟨members, h, fun _ _ hpart => hpart⟩
  | array items =>
    obtain ⟨a', ha', h⟩ := bind_eq_ok_iff.1 h
    split at h
    · cases h
      exact ⟨_, ha', fun _ _ hpart => hpart⟩
    · cases h
  | null | bool | number | string => cases h

end Json

end SearchFilter
