import SearchFilter.Proofs.Pattern.Like
import SearchFilter.Proofs.Text.Inert

/-!
# LIKE when letter case does not count

The pattern of a search is put into lower case together with the text. Its signs are no letters,
and none of them is case-ignorable, so that they change neither the letters next to them nor the
form of a sigma: what comes out is the pattern of the lowercase value.

Main statement: `Pattern.likes_lowercase_containing`.
-/

namespace SearchFilter

/-- A character that means something in a LIKE pattern. -/
def IsLikeSign (c : Char) : Prop := c = '\\' ∨ c = '%' ∨ c = '_'

instance : DecidablePred IsLikeSign := fun c => by
  unfold IsLikeSign
  infer_instance

theorem likeLiteral_of_sign {c : Char} (h : IsLikeSign c) : likeLiteral c = ['\\', c] := if_pos h

theorem likeLiteral_of_not_sign {c : Char} (h : ¬ IsLikeSign c) : likeLiteral c = [c] := if_neg h

theorem IsLikeSign.inert {c : Char} (h : IsLikeSign c) : Inert c := by
  rcases h with rfl | rfl | rfl <;> decide +kernel

theorem IsLikeSign.steady {c : Char} (h : IsLikeSign c) : Steady (· == c) := by
  rcases h with rfl | rfl | rfl <;> exact steady_sign (by decide) (by decide) (by decide +kernel)

theorem inert_percent : Inert '%' := IsLikeSign.inert (.inr (.inl rfl))

theorem inscribes_likeLiteral : Inscribes likeLiteral := by
  intro c
  by_cases h : IsLikeSign c
  · refine .inl ⟨h.inert, ?_⟩
    rw [likeLiteral_of_sign h, List.forall_mem_cons, List.forall_mem_singleton]
    exact ⟨List.cons_ne_nil _ _, IsLikeSign.inert (.inl rfl), h.inert⟩
  · refine .inr ⟨likeLiteral_of_not_sign h, fun before after d hd => ?_⟩
    refine likeLiteral_of_not_sign fun hsign => h ?_
    rwa [hsign.steady.eq_of_mem_lowerBetween hd]

namespace Pattern

variable {v : String}

theorem toList_lowercase_containing (hne : v.toList ≠ []) (h : '*' ∉ v.toList) (tokenize : Bool) :
    (lowercase (wildcard (v ++ "*") tokenize).containing).toList =
      '%' :: (lowercase v).toList.flatMap likeLiteral ++ ['%'] := by
  have hstart : startsCased ['%'] = startsCased [] := inert_percent.startsCased_cons []
  have hend : ∀ c ∈ ['%'], Inert c := List.forall_mem_singleton.2 inert_percent
  rw [toList_lowercase, toList_containing hne h, List.cons_append, inert_percent.lowerAfter_cons,
    inscribes_likeLiteral.lowerAfter_flatMap_append hend v.toList hstart, toList_lowercase]
  rfl

/-- The search for a prefix finds it in every text that starts with it, also in other letter case,
unless the prefix ends in a capital sigma. -/
theorem likes_lowercase_containing (hne : v.toList ≠ []) (hstar : '*' ∉ v.toList)
    (hsigma : ¬ EndsInSigma v.toList) {s : String} (hs : v.toList <+: s.toList) {tokenize : Bool} :
    Sql.likes (lowercase (wildcard (v ++ "*") tokenize).containing).toList
      (lowercase s).toList = true := by
  rw [toList_lowercase_containing hne hstar, Sql.likes_percent_literal_percent_iff]
  exact (startsWith_lowercase hsigma hs).isInfix

end Pattern

end SearchFilter
