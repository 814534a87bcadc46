import Mathlib.Data.List.Basic

/-!
# Computations that may fail

A computation of several parts has a result when each part has one.

Main statements: `bind_eq_ok_iff` and `mapM_cons_eq_ok_iff`.
-/

namespace SearchFilter

variable {ε α β γ : Type}

theorem bind_eq_ok_iff {x : Except ε α} {f : α → Except ε β} {b : β} :
    x >>= f = .ok b ↔ ∃ a, x = .ok a ∧ f a = .ok b := by
  cases x with
  | error e => exact ⟨nofun, nofun⟩
  | ok a =>
    constructor
    · exact fun h => ⟨a, rfl, h⟩
    · rintro ⟨a', ha, h⟩
      cases ha
      exact h

theorem bind_eq_error_iff {x : Except ε α} {f : α → Except ε β} {e : ε} :
    x >>= f = .error e ↔ x = .error e ∨ ∃ a, x = .ok a ∧ f a = .error e := by
  cases x <;> simp [bind, Except.bind]

theorem map_eq_ok_iff {x : Except ε α} {f : α → β} {b : β} :
    x.map f = .ok b ↔ ∃ a, x = .ok a ∧ f a = b := by
  cases x <;> simp [Except.map]

theorem mapError_eq_ok_iff {ε' : Type} {x : Except ε α} {f : ε → ε'} {a : α} :
    x.mapError f = .ok a ↔ x = .ok a := by
  cases x <;> simp [Except.mapError]

theorem mapM_cons_eq_ok_iff {f : α → Except ε β} {a : α} {l : List α} {bs : List β} :
    (a :: l).mapM f = .ok bs ↔ ∃ b rest, f a = .ok b ∧ l.mapM f = .ok rest ∧ bs = b :: rest := by
  rw [List.mapM_cons]
  constructor
  · intro h
    obtain ⟨b, ha, h⟩ := bind_eq_ok_iff.1 h
    obtain ⟨rest, hl, h⟩ := bind_eq_ok_iff.1 h
    cases h
    exact ⟨b, rest, ha, hl, rfl⟩
  · rintro ⟨b, rest, ha, hl, rfl⟩
    exact bind_eq_ok_iff.2 ⟨b, ha, bind_eq_ok_iff.2 ⟨rest, hl, rfl⟩⟩

theorem exists_of_mapM_eq_ok {f : α → Except ε β} {l : List α} {r : List β}
    (h : l.mapM f = .ok r) :
    (∀ a ∈ l, ∃ b ∈ r, f a = .ok b) ∧ ∀ b ∈ r, ∃ a ∈ l, f a = .ok b := by
  induction l generalizing r with
  | nil =>
    cases h
    simp
  | cons a l ih =>
    obtain ⟨b, bs, ha, hl, rfl⟩ := mapM_cons_eq_ok_iff.1 h
    obtain ⟨hall, hmem⟩ := ih hl
    rw [List.forall_mem_cons, List.forall_mem_cons]
    refine ⟨⟨⟨b, List.mem_cons_self, ha⟩, fun a' ha' => ?_⟩,
      ⟨a, List.mem_cons_self, ha⟩, fun b' hb' => ?_⟩
    · obtain ⟨b', hb', heq⟩ := hall a' ha'
      exact ⟨b', List.mem_cons_of_mem _ hb', heq⟩
    · obtain ⟨a', ha', heq⟩ := hmem b' hb'
      exact ⟨a', List.mem_cons_of_mem _ ha', heq⟩

/-- What comes of values that have been written one by one. -/
theorem mapM_map_eq_ok {decode : γ → Except ε β} {encode : α → γ} {f : α → β} {l : List α}
    (h : ∀ a ∈ l, decode (encode a) = .ok (f a)) : (l.map encode).mapM decode = .ok (l.map f) := by
  induction l with
  | nil => rfl
  | cons a l ih =>
    obtain ⟨ha, hl⟩ := List.forall_mem_cons.1 h
    exact mapM_cons_eq_ok_iff.2 ⟨f a, l.map f, ha, ih hl, rfl⟩

end SearchFilter
