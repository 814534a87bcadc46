import Mathlib.Data.List.Basic
import SearchFilter.Condition

/-!
# Pieces without parentheses

A parenthesis holds no value. Pieces that differ in nothing but parentheses make up conditions with
the same parameters, and with texts that differ in nothing but parentheses.

Main statement: `Condition.sameBare_ofPieces`.
-/

namespace SearchFilter

open Piece

/-- Characters without the parentheses among them. -/
def withoutParentheses (s : List Char) : List Char := s.filter (· ∉ ['(', ')'])

theorem withoutParentheses_append (s t : List Char) :
    withoutParentheses (s ++ t) = withoutParentheses s ++ withoutParentheses t :=
  List.filter_append _ _

namespace Piece

/-- The pieces that are more than a parenthesis. -/
def bare (ps : List Piece) : List Piece := ps.filter (· ∉ [text "(", text ")"])

theorem bare_append (ps qs : List Piece) : bare (ps ++ qs) = bare ps ++ bare qs :=
  List.filter_append _ _

theorem bare_cons_of_not {p : Piece} (hp : p ∉ [text "(", text ")"]) (ps : List Piece) :
    bare (p :: ps) = p :: bare ps :=
  List.filter_cons_of_pos (by simpa using hp)

theorem bare_parenthesized (ps : List Piece) : bare (parenthesized ps) = bare ps := by
  have hopening : bare [text "("] = [] := rfl
  have hclosing : bare [text ")"] = [] := rfl
  rw [parenthesized, ← List.singleton_append, bare_append, bare_append, hopening, hclosing,
    List.nil_append, List.append_nil]

/-- Two sequences of pieces with a separator between them. -/
def joined (separator : String) (ps qs : List Piece) : List Piece := ps ++ text separator :: qs

instance (separator : String) : Std.Associative (joined separator) where
  assoc ps qs rs := List.append_assoc ps (text separator :: qs) (text separator :: rs)

theorem separated_eq_foldl (separator : String) (first : List Piece) (rest : List (List Piece)) :
    separated separator first rest = rest.foldl (joined separator) first := by
  induction rest generalizing first with
  | nil => exact List.append_nil first
  | cons second rest ih =>
    rw [List.foldl_cons, ← ih, separated, separated, joined, List.flatMap_cons, List.append_assoc]

theorem bare_separated {separator : String} (h : text separator ∉ [text "(", text ")"])
    (first : List Piece) (rest : List (List Piece)) :
    bare (separated separator first rest) = separated separator (bare first) (rest.map bare) := by
  have hrest : bare (rest.flatMap fun ps => text separator :: ps) =
      (rest.map bare).flatMap fun ps => text separator :: ps := by
    rw [bare, List.filter_flatMap, List.flatMap_map]
    exact List.flatMap_congr fun ps _ => bare_cons_of_not h ps
  rw [separated, separated, bare_append, hrest]

end Piece

namespace Bindings

/-- Parentheses have no part in what is bound, and none in the rest of the text. -/
theorem fill_bare (ns : String) (b : Bindings) (ps : List Piece) :
    (b.fill ns (bare ps)).2 = (b.fill ns ps).2 ∧
      withoutParentheses (String.join (b.fill ns (bare ps)).1).toList =
        withoutParentheses (String.join (b.fill ns ps).1).toList := by
  have hjoin : ∀ (s : String) (l : List String), withoutParentheses (String.join (s :: l)).toList =
      withoutParentheses s.toList ++ withoutParentheses (String.join l).toList := by
    intro s l
    rw [String.toList_join, List.flatMap_cons, withoutParentheses_append, ← String.toList_join]
  induction ps generalizing b with
  | nil => exact ⟨rfl, rfl⟩
  | cons p ps ih =>
    by_cases hp : p ∈ [text "(", text ")"]
    · obtain ⟨s, rfl, hs⟩ : ∃ s, p = text s ∧ withoutParentheses s.toList = [] := by
        rcases List.mem_pair.1 hp with rfl | rfl
        · exact ⟨_, rfl, rfl⟩
        · exact ⟨_, rfl, rfl⟩
      have hbare : bare (text s :: ps) = bare ps :=
        List.filter_cons_of_neg (by rw [decide_eq_true_iff, not_not]; exact hp)
      have hfill : b.fill ns (text s :: ps) = (s :: (b.fill ns ps).1, (b.fill ns ps).2) := rfl
      rw [hbare, hfill, hjoin, hs]
      exact ih b
    · rw [bare_cons_of_not hp]
      cases p with
      | text s =>
        obtain ⟨hbindings, htexts⟩ := ih b
        exact ⟨hbindings, by rw [fill, fill, hjoin, hjoin, htexts]⟩
      | slot column value =>
        obtain ⟨hbindings, htexts⟩ := ih (b.bind column value)
        exact ⟨hbindings, by rw [fill, fill, hjoin, hjoin, htexts]⟩

end Bindings

namespace Condition

/-- Conditions of one namespace with the same parameters, whose texts differ in nothing but
parentheses. -/
structure SameBare (c c' : Condition) : Prop where
  ns_eq : c.ns = c'.ns
  parameters_eq : c.parameters = c'.parameters
  sqlText_eq : withoutParentheses c.sqlText.toList = withoutParentheses c'.sqlText.toList

theorem sameBare_ofPieces (ns : String) {ps qs : List Piece} (h : bare ps = bare qs) :
    (ofPieces ns ps).SameBare (ofPieces ns qs) := by
  obtain ⟨hp, htexts⟩ := Bindings.start.fill_bare ns ps
  obtain ⟨hq, htexts'⟩ := Bindings.start.fill_bare ns qs
  rw [h] at hp htexts
  exact ⟨rfl, congrArg Bindings.parameters (hp.symm.trans hq), htexts.symm.trans htexts'⟩

end Condition

end SearchFilter
