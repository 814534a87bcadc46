import SearchFilter.Proofs.Pattern.Like

/-!
# Globs

A wildcard means a glob: each star stands for any text, every other character for itself. The LIKE
patterns that are written for values and wildcards match the texts that this asks for, whatever
signs they are made of.

Main statement: `Pattern.likes_iff_globs`.
-/

namespace SearchFilter

/-- Whether a text matches a glob. -/
def globs : List Char → List Char → Bool
  | [], t => t.isEmpty
  | c :: g, t => if c = '*' then t.tails.any (globs g) else t.head? == some c && globs g t.tail

variable {g h p t v : List Char}

/-! ## Matching globs -/

theorem globs_nil_iff : globs [] t = true ↔ t = [] := by
  simp [globs]

theorem globs_star_iff : globs ('*' :: g) t = true ↔ ∃ u w, t = u ++ w ∧ globs g w = true := by
  rw [globs, if_pos rfl, tails_any_iff]

theorem globs_cons_iff {c : Char} (hc : c ≠ '*') :
    globs (c :: g) t = true ↔ ∃ u, t = c :: u ∧ globs g u = true := by
  rw [globs, if_neg hc, head?_beq_and_iff]

theorem globs_star_end : globs ['*'] t = true :=
  globs_star_iff.2 ⟨t, [], (List.append_nil t).symm, globs_nil_iff.2 rfl⟩

/-- A test of texts that takes a glob one character at a time, and then asks for `q`, asks for a
text that matches the glob and has what `q` asks for after it. -/
theorem exists_append_iff_of_steps {f : List Char → List Char → Prop} {q : List Char → Prop}
    (nil : ∀ t, f [] t ↔ q t)
    (star : ∀ g t, f ('*' :: g) t ↔ ∃ u w, t = u ++ w ∧ f g w)
    (char : ∀ c g t, c ≠ '*' → (f (c :: g) t ↔ ∃ u, t = c :: u ∧ f g u)) :
    f g t ↔ ∃ u w, t = u ++ w ∧ globs g u = true ∧ q w := by
  induction g generalizing t with
  | nil =>
    simp only [nil, globs_nil_iff]
    constructor
    · exact fun hq => ⟨[], t, rfl, rfl, hq⟩
    · rintro ⟨_, w, rfl, rfl, hw⟩
      exact hw
  | cons c g ih =>
    by_cases hc : c = '*'
    · subst hc
      simp only [star, globs_star_iff, ih]
      constructor
      · rintro ⟨a, _, rfl, u, w, rfl, hu, hw⟩
        exact ⟨a ++ u, w, (List.append_assoc a u w).symm, ⟨a, u, rfl, hu⟩, hw⟩
      · rintro ⟨_, w, rfl, ⟨a, u, rfl, hu⟩, hw⟩
        exact ⟨a, u ++ w, List.append_assoc a u w, u, w, rfl, hu, hw⟩
    · simp only [char c g _ hc, globs_cons_iff hc, ih]
      constructor
      · rintro ⟨_, rfl, u, w, rfl, hu, hw⟩
        exact ⟨c :: u, w, rfl, ⟨u, rfl, hu⟩, hw⟩
      · rintro ⟨_, w, rfl, ⟨u, rfl, hu⟩, hw⟩
        exact ⟨u ++ w, rfl, u, w, rfl, hu, hw⟩

theorem globs_append_iff :
    globs (g ++ h) t = true ↔ ∃ u w, t = u ++ w ∧ globs g u = true ∧ globs h w = true :=
  exists_append_iff_of_steps (f := fun g t => globs (g ++ h) t = true)
    (q := fun w => globs h w = true) (fun _ => Iff.rfl) (fun _ _ => globs_star_iff)
    fun _ _ _ hc => globs_cons_iff hc

/-- A text without stars is matched by itself. -/
theorem globs_append_of_not_mem (hv : '*' ∉ v) :
    globs (v ++ g) t = true ↔ ∃ u, t = v ++ u ∧ globs g u = true := by
  induction v generalizing t with
  | nil => simp
  | cons c v ih =>
    rw [List.mem_cons, not_or] at hv
    rw [List.cons_append, globs_cons_iff (Ne.symm hv.1)]
    simp only [ih hv.2]
    constructor
    · rintro ⟨_, rfl, u, rfl, hu⟩
      exact ⟨u, rfl, hu⟩
    · rintro ⟨u, rfl, hu⟩
      exact ⟨v ++ u, rfl, u, rfl, hu⟩

/-- Two stars next to each other are no more than one. -/
theorem globs_star_star : globs ('*' :: '*' :: g) t = globs ('*' :: g) t := by
  refine Bool.eq_iff_iff.2 ?_
  simp only [globs_star_iff]
  constructor
  · rintro ⟨a, _, rfl, b, w, rfl, hw⟩
    exact ⟨a ++ b, w, (List.append_assoc a b w).symm, hw⟩
  · rintro ⟨a, w, rfl, hw⟩
    exact ⟨a, w, rfl, [], w, rfl, hw⟩

/-! ## Patterns of wildcards -/

theorem cons_intercalate_singleton {α : Type} (x : α) {ls : List (List α)} (h : ls ≠ []) :
    x :: [x].intercalate ls = ls.flatMap (x :: ·) := by
  induction ls with
  | nil => exact absurd rfl h
  | cons l ls ih =>
    cases ls with
    | nil => simp
    | cons second ls =>
      rw [List.intercalate_cons_cons, List.flatMap_cons, ← ih (List.cons_ne_nil second ls)]
      simp

namespace Sql

theorem likes_flatMap_likeWildcard_append :
    likes (v.flatMap likeWildcard ++ p) t = true ↔
      ∃ u w, t = u ++ w ∧ globs v u = true ∧ likes p w = true := by
  refine exists_append_iff_of_steps (f := fun v t => likes (v.flatMap likeWildcard ++ p) t = true)
    (q := fun w => likes p w = true) (fun _ => Iff.rfl) (fun v t => ?_) fun c v t hc => ?_
  · rw [List.flatMap_cons, likeWildcard, if_pos rfl]
    exact likes_percent_iff
  · rw [List.flatMap_cons, likeWildcard, if_neg hc, List.append_assoc]
    exact likes_likeLiteral_iff

/-- Where stars are written as percent signs, a text is like the pattern of a wildcard just when it
matches the wildcard. -/
theorem likes_flatMap_likeWildcard_iff :
    likes (v.flatMap likeWildcard) t = true ↔ globs v t = true := by
  have happend := likes_flatMap_likeWildcard_append (v := v) (p := []) (t := t)
  rw [List.append_nil] at happend
  simp only [happend, likes_nil_iff]
  constructor
  · rintro ⟨u, _, rfl, hu, rfl⟩
    rwa [List.append_nil]
  · exact fun hv => ⟨t, [], (List.append_nil t).symm, hv, rfl⟩

/-- Percent signs around the parts of a wildcard ask for what stars around all its pieces ask for,
the empty pieces included. -/
theorem likes_percent_parts_iff {pieces : List (List Char)} (hfree : ∀ w ∈ pieces, '*' ∉ w) :
    likes ((pieces.filter fun w => !w.isEmpty).flatMap (fun w => '%' :: w.flatMap likeLiteral) ++
        ['%']) t = true ↔
      globs (pieces.flatMap (fun w => '*' :: w) ++ ['*']) t = true := by
  induction pieces generalizing t with
  | nil => exact iff_of_true likes_percent_end globs_star_end
  | cons w pieces ih =>
    rw [List.forall_mem_cons] at hfree
    by_cases hw : w = []
    · -- an empty piece is left out of the pattern, and its star stands next to another one
      subst hw
      obtain ⟨g, hg⟩ : ∃ g, pieces.flatMap (fun w => '*' :: w) ++ ['*'] = '*' :: g := by
        cases pieces with
        | nil => exact ⟨[], rfl⟩
        | cons w pieces => exact ⟨_, rfl⟩
      rw [List.flatMap_cons, List.append_assoc, List.singleton_append, hg, globs_star_star, ← hg]
      exact ih hfree.2
    · rw [filter_nonempty_cons hw, List.flatMap_cons, List.flatMap_cons, List.append_assoc,
        List.append_assoc, List.cons_append, List.cons_append, likes_percent_iff, globs_star_iff]
      simp only [likes_flatMap_likeLiteral_append, globs_append_of_not_mem hfree.1, ih hfree.2]

/-- A pattern may have one percent sign before each part in place of one between any two. -/
theorem likes_percent_intercalate (parts : List (List Char)) :
    likes ('%' :: ['%'].intercalate parts ++ ['%']) t =
      likes (parts.flatMap ('%' :: ·) ++ ['%']) t := by
  cases parts with
  | nil =>
    have htwo : likes ['%', '%'] t = true :=
      likes_percent_iff.2 ⟨[], t, rfl, likes_percent_end⟩
    exact htwo.trans likes_percent_end.symm
  | cons part parts => rw [cons_intercalate_singleton '%' (List.cons_ne_nil part parts)]

end Sql

/-! ## Escapes -/

/-- A text with a backslash before each occurrence of a sign. -/
def escapeSign (sign : Char) (s : List Char) : List Char :=
  s.flatMap fun c => if c = sign then ['\\', c] else [c]

/-- To escape a text at once is to escape one sign after the other, as long as the backslash comes
first: a later sign is no backslash, and the backslash before it stays as it is. -/
theorem flatMap_likeLiteral_eq_escapeSign (s : List Char) :
    s.flatMap likeLiteral = escapeSign '_' (escapeSign '%' (escapeSign '\\' s)) := by
  unfold escapeSign
  rw [List.flatMap_assoc, List.flatMap_assoc]
  refine List.flatMap_congr fun c _ => ?_
  by_cases hbackslash : c = '\\'
  · subst hbackslash
    decide
  · by_cases hpercent : c = '%'
    · subst hpercent
      decide
    · by_cases hunderscore : c = '_' <;> simp [likeLiteral, hbackslash, hpercent, hunderscore]

/-- Whether every backslash of a LIKE pattern has a character after it to escape. -/
def escapesPaired : List Char → Bool
  | [] => true
  | ['\\'] => false
  | '\\' :: _ :: p => escapesPaired p
  | _ :: p => escapesPaired p

theorem escapesPaired_percent_cons : escapesPaired ('%' :: p) = escapesPaired p := by
  rw [escapesPaired] <;> simp

theorem escapesPaired_likeLiteral_append (c : Char) :
    escapesPaired (likeLiteral c ++ p) = escapesPaired p := by
  unfold likeLiteral
  split
  · rfl
  · next h =>
    simp only [not_or] at h
    rw [List.singleton_append, escapesPaired] <;> simp [h.1]

theorem escapesPaired_likeWildcard_append (c : Char) :
    escapesPaired (likeWildcard c ++ p) = escapesPaired p := by
  unfold likeWildcard
  split
  · exact escapesPaired_percent_cons
  · exact escapesPaired_likeLiteral_append c

theorem escapesPaired_flatMap_append {f : Char → List Char}
    (h : ∀ c p, escapesPaired (f c ++ p) = escapesPaired p) :
    escapesPaired (v.flatMap f ++ p) = escapesPaired p := by
  induction v with
  | nil => rfl
  | cons c v ih => rw [List.flatMap_cons, List.append_assoc, h, ih]

theorem escapesPaired_flatMap_likeLiteral_append :
    escapesPaired (v.flatMap likeLiteral ++ p) = escapesPaired p :=
  escapesPaired_flatMap_append fun c _ => escapesPaired_likeLiteral_append c

theorem escapesPaired_intercalate_append (ws : List (List Char)) :
    escapesPaired (['%'].intercalate (ws.map fun w => w.flatMap likeLiteral) ++ p) =
      escapesPaired p := by
  induction ws with
  | nil => rfl
  | cons w ws ih =>
    cases ws with
    | nil =>
      rw [List.map_singleton, List.intercalate_singleton, escapesPaired_flatMap_likeLiteral_append]
    | cons second ws =>
      rw [List.map_cons] at ih
      rw [List.map_cons, List.map_cons, List.intercalate_cons_cons, List.append_assoc,
        List.append_assoc, escapesPaired_flatMap_likeLiteral_append, List.singleton_append,
        escapesPaired_percent_cons, ih]

/-! ## Patterns of terms -/

/-- The pattern of the texts that start with a wildcard. -/
theorem likes_prefixPattern (v s : String) :
    Sql.likes (prefixPattern v).toList s.toList = globs (v.toList ++ ['*']) s.toList := by
  refine Bool.eq_iff_iff.2 ?_
  rw [prefixPattern, String.toList_ofList]
  split
  · next hlast =>
    obtain ⟨w, hw⟩ := List.getLast?_eq_some_iff.1 hlast
    rw [List.append_nil, Sql.likes_flatMap_likeWildcard_iff, hw, List.append_assoc,
      globs_append_iff, globs_append_iff]
    simp only [List.singleton_append, globs_star_star]
  · rw [Sql.likes_flatMap_likeWildcard_append, globs_append_iff]
    simp only [Sql.likes_percent_end, globs_star_end]

namespace Pattern

/-- The pattern of the texts that contain a wildcard. -/
theorem likes_containing_wildcard (v : String) (tokenize : Bool) (s : String) :
    Sql.likes (wildcard v tokenize).containing.toList s.toList =
      globs ('*' :: v.toList ++ ['*']) s.toList := by
  have hfree : ∀ w ∈ pieces (· == '*') v.toList, '*' ∉ w := fun w hw hmem =>
    absurd (eq_false_of_mem_pieces hw '*' hmem) (by decide)
  have hne : pieces (· == '*') v.toList ≠ [] := List.cons_ne_nil _ _
  have hv : '*' :: v.toList = (pieces (· == '*') v.toList).flatMap ('*' :: ·) := by
    rw [← cons_intercalate_singleton '*' hne, intercalate_pieces]
  refine Bool.eq_iff_iff.2 ?_
  rw [containing, String.toList_ofList, Sql.likes_percent_intercalate, List.flatMap_map, hv]
  exact Sql.likes_percent_parts_iff hfree

/-- The pattern of the texts that contain a value. -/
theorem likes_containing_literal (v s : String) :
    Sql.likes (exact v).containing.toList s.toList = true ↔ v.toList <:+: s.toList := by
  rw [containing, String.toList_ofList, Sql.likes_percent_literal_percent_iff]

theorem escapesPaired_prefixPattern (v : String) :
    escapesPaired (prefixPattern v).toList = true := by
  rw [prefixPattern, String.toList_ofList,
    escapesPaired_flatMap_append fun c _ => escapesPaired_likeWildcard_append c]
  split <;> rfl

theorem escapesPaired_containing (p : Pattern) : escapesPaired p.containing.toList = true := by
  cases p with
  | exact v | lenient v =>
    rw [containing, String.toList_ofList, List.cons_append, escapesPaired_percent_cons,
      escapesPaired_flatMap_likeLiteral_append]
    rfl
  | wildcard v tokenize =>
    rw [containing, String.toList_ofList, List.cons_append, escapesPaired_percent_cons,
      escapesPaired_intercalate_append]
    rfl

/-- What the LIKE patterns of terms mean: the pattern for a start is matched by the texts that match
the wildcard with a star after it; the pattern of a search by the texts that contain the value, or
that match the wildcard between two stars. No pattern ends in a backslash with nothing to escape. -/
theorem likes_iff_globs :
    (∀ v s : String, Sql.likes (prefixPattern v).toList s.toList =
      globs (v.toList ++ ['*']) s.toList) ∧
    (∀ v s : String, Sql.likes (exact v).containing.toList s.toList = true ↔
      v.toList <:+: s.toList) ∧
    (∀ v s : String, Sql.likes (lenient v).containing.toList s.toList = true ↔
      v.toList <:+: s.toList) ∧
    (∀ (v : String) (tokenize : Bool) (s : String),
      Sql.likes (wildcard v tokenize).containing.toList s.toList =
        globs ('*' :: v.toList ++ ['*']) s.toList) ∧
    (∀ v : String, escapesPaired (prefixPattern v).toList = true) ∧
    ∀ p : Pattern, escapesPaired p.containing.toList = true :=
  ⟨likes_prefixPattern, likes_containing_literal, likes_containing_literal,
    likes_containing_wildcard, escapesPaired_prefixPattern, escapesPaired_containing⟩

example : prefixPattern "50%*a\\" = "50\\%%a\\\\%" ∧
    (wildcard "*a_**b*" false).containing = "%a\\_%b%" := by decide +kernel

end Pattern

end SearchFilter
