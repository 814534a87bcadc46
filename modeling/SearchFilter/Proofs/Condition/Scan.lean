import Mathlib.Data.List.Basic
import SearchFilter.Condition.Placeholder

/-!
# Scanning what was written

A placeholder is found again where it was written, whatever stands after it, and a text without a
number sign has no placeholder.

Main statements: `scan_append` and `scan_render`.
-/

namespace SearchFilter

theorem isIdentRest_of_isIdentStart {c : Char} (h : isIdentStart c = true) :
    isIdentRest c = true := by
  unfold isIdentStart at h
  unfold isIdentRest Char.isAlphanum
  rw [Bool.or_eq_true] at h
  rcases h with h | h <;> simp [h]

theorem isIdentRest_of_mem {s : List Char} (h : isIdentifier s = true) :
    ∀ c ∈ s, isIdentRest c = true := by
  cases s with
  | nil => simp
  | cons c s =>
    rw [isIdentifier, Bool.and_eq_true, List.all_eq_true] at h
    rw [List.forall_mem_cons]
    exact ⟨isIdentRest_of_isIdentStart h.1, h.2⟩

theorem takeWhile_append_cons {α : Type} {p : α → Bool} {s t : List α} {a : α}
    (hs : ∀ b ∈ s, p b = true) (ha : p a = false) : (s ++ a :: t).takeWhile p = s := by
  rw [List.takeWhile_append_of_pos hs, List.takeWhile_cons_of_neg (by simp [ha]), List.append_nil]

theorem dropWhile_append_cons {α : Type} {p : α → Bool} {s t : List α} {a : α}
    (hs : ∀ b ∈ s, p b = true) (ha : p a = false) : (s ++ a :: t).dropWhile p = a :: t := by
  rw [List.dropWhile_append_of_pos hs, List.dropWhile_cons_of_neg (by simp [ha])]

namespace Mark

/-- What makes a mark readable: a namespace that is an identifier, and a name that is not empty
and does not close the braces itself. -/
structure Proper (m : Mark) : Prop where
  ns : isIdentifier m.ns = true
  name_ne : m.name ≠ []
  name_open : '}' ∉ m.name

theorem readName?_append {name : List Char} (hne : name ≠ []) (h : '}' ∉ name)
    (rest : List Char) : readName? (name ++ '}' :: rest) = some (name, rest) := by
  have hall : ∀ c ∈ name, decide (c ≠ '}') = true := fun c hc =>
    decide_eq_true fun hc' => h (hc' ▸ hc)
  unfold readName?
  rw [takeWhile_append_cons hall (by simp), dropWhile_append_cons hall (by simp)]
  cases name with
  | nil => exact absurd rfl hne
  | cons c cs => rfl

theorem read?_render {m : Mark} (h : m.Proper) (rest : List Char) :
    read? (m.render ++ rest) = some (m, rest) := by
  have hns := isIdentRest_of_mem h.ns
  have hrender : m.render ++ rest = '#' :: '{' :: (m.ns ++ '.' :: (m.name ++ '}' :: rest)) := by
    simp [render]
  have hdot : isIdentRest '.' = false := by decide
  rw [hrender, read?, takeWhile_append_cons hns hdot, dropWhile_append_cons hns hdot, if_pos h.ns]
  simp only [readName?_append h.name_ne h.name_open, Option.map_some]

theorem read?_of_ne {c : Char} (h : c ≠ '#') (s : List Char) : read? (c :: s) = none := by
  unfold read?
  split
  · next heq => exact absurd (List.cons.inj heq).1 h
  · rfl

end Mark

theorem scan_cons_none {c : Char} {s : List Char} (h : Mark.read? (c :: s) = none) :
    scan (c :: s) = ⟨c :: (scan s).lead, (scan s).marks⟩ := by
  rw [scan]
  split
  · next heq => rw [h] at heq; exact absurd heq (by simp)
  · rfl

theorem scan_append {s : List Char} (h : '#' ∉ s) (t : List Char) :
    scan (s ++ t) = ⟨s ++ (scan t).lead, (scan t).marks⟩ := by
  induction s with
  | nil => rfl
  | cons c s ih =>
    rw [List.mem_cons, not_or] at h
    rw [List.cons_append, scan_cons_none (Mark.read?_of_ne (Ne.symm h.1) _), ih h.2]
    rfl

theorem scan_render {m : Mark} (h : m.Proper) (t : List Char) :
    scan (m.render ++ t) = ⟨[], (m, (scan t).lead) :: (scan t).marks⟩ := by
  have hread := Mark.read?_render h t
  obtain ⟨c, s, hcs⟩ : ∃ c s, m.render ++ t = c :: s := ⟨_, _, rfl⟩
  rw [hcs] at hread ⊢
  rw [scan]
  split
  · next m' rest heq =>
    rw [hread, Option.some.injEq, Prod.mk.injEq] at heq
    obtain ⟨rfl, rfl⟩ := heq
    rfl
  · next heq => rw [hread] at heq; exact absurd heq (by simp)

end SearchFilter
