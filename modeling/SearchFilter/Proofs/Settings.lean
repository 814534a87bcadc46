import SearchFilter.Proofs.Compile.Slots
import SearchFilter.Proofs.Condition.Namespace
import SearchFilter.Settings

/-!
# Conditions on components and on assets

With valid settings the two kinds of conditions can stand in one statement: no placeholder of one
is a placeholder of the other. Of one expression they say the same.

Main statement: `Settings.filters_of_valid`.
-/

namespace SearchFilter

open Piece

namespace Condition

/-- Wherever the text opens a placeholder, one of the namespace begins. -/
def KeepsTo (ns : String) (c : Condition) : Prop :=
  ∀ before after, c.sqlText.toList = before ++ '#' :: '{' :: after →
    ∃ m, (scan c.sqlText.toList).Begins before m ∧ m.ns = ns.toList

variable {ns ns' : String} {c c' : Condition}

theorem keepsTo_of_owned (h : (scan c.sqlText.toList).Owned ns) : c.KeepsTo ns := by
  intro before after heq
  rw [← join_scan c.sqlText.toList] at heq
  exact h.exists_begins heq

/-- Texts with placeholders in two namespaces have none in common. -/
theorem disjoint_render_marks (h : (scan c.sqlText.toList).Owned ns)
    (h' : (scan c'.sqlText.toList).Owned ns') (hne : ns ≠ ns') :
    List.Disjoint (c.marks.map Mark.render) (c'.marks.map Mark.render) := by
  rw [List.disjoint_left]
  intro text hmem hmem'
  simp only [marks, List.map_map, List.mem_map] at hmem hmem'
  obtain ⟨p, hp, rfl⟩ := hmem
  obtain ⟨p', hp', heq⟩ := hmem'
  have hmark : p.1 = p'.1 := (h.proper p hp).eq_of_render_eq (h'.proper p' hp') heq.symm
  have hns := (h.ns_eq p hp).symm.trans (hmark ▸ h'.ns_eq p' hp')
  exact hne (String.toList_inj.1 hns)

end Condition

namespace Expression

variable {d : Dialect} {ns ns' : String} {e : Expression} {c c' : Condition}

theorem owned_of_compile (hns : isIdentifier ns.toList = true) (h : e.compile d ns = .ok c) :
    (scan c.sqlText.toList).Owned ns := by
  obtain ⟨-, rfl⟩ := compile_eq_ok_iff.1 h
  exact Condition.owned_ofPieces hns (e.tidy_pieces d) (e.columns_of_mem_slots d)

/-- The namespace has no part in what is bound. -/
theorem parameters_eq_of_compile (h : e.compile d ns = .ok c) (h' : e.compile d ns' = .ok c') :
    c.parameters = c'.parameters := by
  rw [Parameters.mk.injEq, entries_eq h, entries_eq h']

theorem toList_sqlText_of_compile (hns : isIdentifier ns.toList = true)
    (hns' : isIdentifier ns'.toList = true) (h : e.compile d ns = .ok c)
    (h' : e.compile d ns' = .ok c') :
    c'.sqlText.toList = ((scan c.sqlText.toList).inNamespace ns').join Mark.render := by
  obtain ⟨-, rfl⟩ := compile_eq_ok_iff.1 h
  obtain ⟨-, rfl⟩ := compile_eq_ok_iff.1 h'
  rw [← Condition.scan_ofPieces_inNamespace hns hns' (e.tidy_pieces d) (e.columns_of_mem_slots d),
    join_scan]

end Expression

namespace Settings

variable {s : Settings}

theorem componentFilter_eq (s : Settings) (e : Expression) :
    s.componentFilter e = e.compile s.dialect s.componentNs := rfl

theorem assetFilter_eq (s : Settings) (e : Expression) :
    s.assetFilter e = e.compile s.dialect s.assetNs := rfl

theorem namespaceErrors_eq_nil_iff {kind ns : String} :
    namespaceErrors kind ns = [] ↔ isIdentifier ns.toList = true := by
  unfold namespaceErrors
  split
  · next hempty =>
    rw [String.isEmpty_iff] at hempty
    subst hempty
    exact ⟨nofun, nofun⟩
  · split <;> simp_all

theorem errors_eq_nil_iff :
    s.errors = [] ↔ isIdentifier s.componentNs.toList = true ∧
      isIdentifier s.assetNs.toList = true ∧ s.componentNs ≠ s.assetNs := by
  unfold errors
  rw [List.append_eq_nil_iff, List.append_eq_nil_iff, namespaceErrors_eq_nil_iff,
    namespaceErrors_eq_nil_iff, and_assoc]
  split <;> simp_all

/-- With valid settings the placeholders of a condition on components and of one on assets are
different ones, each in the namespace of its kind, and nothing else in the two texts opens a
placeholder. The two conditions of one expression are rejected for the same issues, or bind the
same values and have the same text but for the namespace. -/
theorem filters_of_valid (h : s.errors = []) :
    (∀ (e₁ e₂ : Expression) (c₁ c₂ : Condition), s.componentFilter e₁ = .ok c₁ →
      s.assetFilter e₂ = .ok c₂ →
        List.Disjoint (c₁.marks.map Mark.render) (c₂.marks.map Mark.render) ∧
          c₁.KeepsTo s.componentNs ∧ c₂.KeepsTo s.assetNs) ∧
      ∀ e : Expression,
        (∃ invalid, s.componentFilter e = .error invalid ∧ s.assetFilter e = .error invalid) ∨
          ∃ c₁ c₂, s.componentFilter e = .ok c₁ ∧ s.assetFilter e = .ok c₂ ∧
            c₁.parameters = c₂.parameters ∧
              c₂.sqlText.toList =
                ((scan c₁.sqlText.toList).inNamespace s.assetNs).join Mark.render := by
  obtain ⟨hcomponent, hasset, hne⟩ := errors_eq_nil_iff.1 h
  simp only [componentFilter_eq, assetFilter_eq]
  constructor
  · intro e₁ e₂ c₁ c₂ h₁ h₂
    have howned₁ := Expression.owned_of_compile hcomponent h₁
    have howned₂ := Expression.owned_of_compile hasset h₂
    exact ⟨Condition.disjoint_render_marks howned₁ howned₂ hne,
      Condition.keepsTo_of_owned howned₁, Condition.keepsTo_of_owned howned₂⟩
  · intro e
    cases h₁ : e.compile s.dialect s.componentNs with
    | error invalid =>
      exact .inl ⟨invalid, rfl,
        Expression.compile_eq_error_iff.2 (Expression.compile_eq_error_iff.1 h₁)⟩
    | ok c₁ =>
      obtain ⟨c₂, h₂⟩ : ∃ c₂, e.compile s.dialect s.assetNs = .ok c₂ :=
        Expression.exists_compile_eq_ok_iff.2 (Expression.exists_compile_eq_ok_iff.1 ⟨c₁, h₁⟩)
      exact .inr ⟨c₁, c₂, rfl, h₂, Expression.parameters_eq_of_compile h₁ h₂,
        Expression.toList_sqlText_of_compile hcomponent hasset h₁ h₂⟩

theorem filters_of_valid_default :
    default.errors = [] ∧
      ∃ c₁ c₂, default.componentFilter (Expression.compare .sha1 .eq (.exact "a")) = .ok c₁ ∧
        default.assetFilter (Expression.compare .sha1 .eq (.exact "a")) = .ok c₂ ∧
        List.Disjoint (c₁.marks.map Mark.render) (c₂.marks.map Mark.render) ∧
        c₁.parameters = c₂.parameters ∧
        c₁.sqlText = "sha1 = #\x7bfilterParams.sha10\x7d" ∧
        c₂.sqlText = "sha1 = #\x7bassetFilterParams.sha10\x7d" := by
  have hvalid : default.errors = [] := by decide
  obtain ⟨hpair, hsame⟩ := filters_of_valid hvalid
  refine ⟨hvalid, ?_⟩
  rcases hsame (Expression.compare .sha1 .eq (.exact "a")) with
    ⟨invalid, herror, -⟩ | ⟨c₁, c₂, h₁, h₂, hparameters, -⟩
  · rw [componentFilter_eq] at herror
    exact absurd (Expression.compile_eq_error_iff.1 herror).1 (by decide +kernel)
  · refine ⟨c₁, c₂, h₁, h₂, (hpair _ _ c₁ c₂ h₁ h₂).1, hparameters, ?_, ?_⟩
    · rw [componentFilter_eq] at h₁
      rw [(Expression.compile_eq_ok_iff.1 h₁).2]
      decide +kernel
    · rw [assetFilter_eq] at h₂
      rw [(Expression.compile_eq_ok_iff.1 h₂).2]
      decide +kernel

end Settings

end SearchFilter
