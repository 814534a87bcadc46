import Mathlib.Data.List.Infix
import SearchFilter.Pattern
import SearchFilter.Proofs.Text.Split

/-!
# What LIKE patterns match

A text is like a pattern when the pattern can be read along it to the end of both. A value that is
escaped is read as itself, so that the patterns of a value and of a prefix match the texts that
contain it or start with it, whatever signs the value is made of.

Main statements: `likes_flatMap_likeLiteral_append`, and for wildcards with a single star at their
end `likes_prefixPattern_iff`.
-/

namespace SearchFilter

/-! ## Ends of texts -/

theorem tails_any_iff {f : List Char → Bool} {t : List Char} :
    t.tails.any f = true ↔ ∃ u v, t = u ++ v ∧ f v = true := by
  rw [List.any_eq_true]
  constructor
  · rintro ⟨v, hv, hf⟩
    obtain ⟨u, hu⟩ := (List.mem_tails v t).1 hv
    exact ⟨u, v, hu.symm, hf⟩
  · rintro ⟨u, v, rfl, hf⟩
    exact ⟨v, (List.mem_tails v _).2 (List.suffix_append u v), hf⟩

theorem head?_beq_and_iff {f : List Char → Bool} {t : List Char} {c : Char} :
    (t.head? == some c && f t.tail) = true ↔ ∃ u, t = c :: u ∧ f u = true := by
  rw [Bool.and_eq_true, beq_iff_eq]
  constructor
  · rintro ⟨hhead, hf⟩
    exact ⟨t.tail, List.eq_cons_of_mem_head? hhead, hf⟩
  · rintro ⟨u, rfl, hf⟩
    exact ⟨rfl, hf⟩

/-! ## Patterns -/

namespace Sql

/-- Whether a text is like a pattern. A backslash at the end of a pattern has nothing to escape,
and such a pattern matches nothing. -/
def likes : List Char → List Char → Bool
  | [], t => t.isEmpty
  | ['\\'], _ => false
  | '\\' :: c :: p, t => t.head? == some c && likes p t.tail
  | '%' :: p, t => t.tails.any (likes p)
  | '_' :: p, t => !t.isEmpty && likes p t.tail
  | c :: p, t => t.head? == some c && likes p t.tail

variable {p t : List Char}

theorem likes_nil_iff : likes [] t = true ↔ t = [] := by
  simp [likes]

theorem likes_percent_iff : likes ('%' :: p) t = true ↔ ∃ u v, t = u ++ v ∧ likes p v = true := by
  rw [likes, tails_any_iff]

theorem likes_percent_end : likes ['%'] t = true :=
  likes_percent_iff.2 ⟨t, [], (List.append_nil t).symm, likes_nil_iff.2 rfl⟩

theorem likes_likeLiteral_iff {c : Char} :
    likes (likeLiteral c ++ p) t = true ↔ ∃ u, t = c :: u ∧ likes p u = true := by
  unfold likeLiteral
  split
  · rw [List.cons_append, List.cons_append, List.nil_append, likes, head?_beq_and_iff]
  · next h =>
    simp only [not_or] at h
    obtain ⟨hbackslash, hpercent, hunderscore⟩ := h
    rw [List.cons_append, List.nil_append, likes, head?_beq_and_iff]
    · exact fun heq => absurd heq hbackslash
    · exact fun d q heq => absurd heq hbackslash
    · exact hpercent
    · exact hunderscore

/-- A value that is escaped is read as itself. -/
theorem likes_flatMap_likeLiteral_append {v : List Char} :
    likes (v.flatMap likeLiteral ++ p) t = true ↔ ∃ u, t = v ++ u ∧ likes p u = true := by
  induction v generalizing t with
  | nil => simp
  | cons c v ih =>
    rw [List.flatMap_cons, List.append_assoc, likes_likeLiteral_iff]
    constructor
    · rintro ⟨_, rfl, h⟩
      obtain ⟨u, rfl, hu⟩ := ih.1 h
      exact ⟨u, rfl, hu⟩
    · rintro ⟨u, rfl, hu⟩
      exact ⟨v ++ u, rfl, ih.2 ⟨u, rfl, hu⟩⟩

theorem likes_literal_percent_iff {v : List Char} :
    likes (v.flatMap likeLiteral ++ ['%']) t = true ↔ v <+: t := by
  rw [likes_flatMap_likeLiteral_append]
  constructor
  · rintro ⟨u, rfl, -⟩
    exact List.prefix_append v u
  · rintro ⟨u, rfl⟩
    exact ⟨u, rfl, likes_percent_end⟩

theorem likes_percent_literal_percent_iff {v : List Char} :
    likes ('%' :: v.flatMap likeLiteral ++ ['%']) t = true ↔ v <:+: t := by
  rw [List.cons_append, likes_percent_iff]
  constructor
  · rintro ⟨u, w, rfl, h⟩
    obtain ⟨z, rfl⟩ := likes_literal_percent_iff.1 h
    exact ⟨u, z, List.append_assoc u v z⟩
  · rintro ⟨u, z, rfl⟩
    exact ⟨u, v ++ z, List.append_assoc u v z, likes_literal_percent_iff.2 (List.prefix_append v z)⟩

end Sql

/-! ## Wildcards with one star -/

theorem flatMap_likeWildcard_of_not_mem {v : List Char} (h : '*' ∉ v) :
    v.flatMap likeWildcard = v.flatMap likeLiteral :=
  List.flatMap_congr fun _ hc => if_neg (ne_of_mem_of_not_mem hc h)

namespace Pattern

variable {v : String}

theorem toList_prefixPattern (h : '*' ∉ v.toList) :
    (prefixPattern (v ++ "*")).toList = v.toList.flatMap likeLiteral ++ ['%'] := by
  have hstar : (v ++ "*").toList = v.toList ++ ['*'] := String.toList_append
  rw [prefixPattern, String.toList_ofList, hstar, List.getLast?_concat, if_pos rfl,
    List.append_nil, List.flatMap_append, flatMap_likeWildcard_of_not_mem h]
  rfl

theorem toList_containing (hne : v.toList ≠ []) (h : '*' ∉ v.toList) (tokenize : Bool) :
    (wildcard (v ++ "*") tokenize).containing.toList =
      '%' :: v.toList.flatMap likeLiteral ++ ['%'] := by
  have hstar : (v ++ "*").toList = v.toList ++ ['*'] := String.toList_append
  have hfree : ∀ c ∈ v.toList, (c == '*') = false := fun c hc => by
    simpa using ne_of_mem_of_not_mem hc h
  have hpieces : nonemptyPieces (· == '*') (v.toList ++ ['*']) = [v.toList] :=
    nonemptyPieces_append_of_run hne hfree (by simp)
  rw [containing, String.toList_ofList, hstar, hpieces,
    List.map_singleton, List.intercalate_singleton]

/-- The pattern of a prefix matches the texts that start with it. -/
theorem likes_prefixPattern_iff (h : '*' ∉ v.toList) {t : List Char} :
    Sql.likes (prefixPattern (v ++ "*")).toList t = true ↔ v.toList <+: t := by
  rw [toList_prefixPattern h, Sql.likes_literal_percent_iff]

end Pattern

end SearchFilter
