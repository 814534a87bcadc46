import Mathlib.Tactic.Choose
import SearchFilter.Proofs.Sql.Reading

/-!
# Operands

Tokens that read the same wherever an operand can stand: alone, after `NOT`, and on either side of
a connective. Such are comparisons, negations of operands, and clauses of operands in parentheses;
in none of them is a connective outside parentheses.

Main statements: `IsOperand.atom`, `IsOperand.not`, `IsOperand.clause`, and for texts that are
operands `IsOperand.readTokens_eq` and `IsOperand.outermost`.
-/

namespace SearchFilter.Sql

variable {α : Type}

/-! ## Matching parentheses -/

/-- Tokens whose parentheses match, and the parts that they are read as. -/
inductive Balanced : List (Token α) → List (Part α) → Prop
  | nil : Balanced [] []
  | token {t : Token α} {ts : List (Token α)} {ps : List (Part α)} (ho : t ≠ .opening)
      (hc : t ≠ .closing) (h : Balanced ts ps) : Balanced (t :: ts) (.token t :: ps)
  | group {inside ts : List (Token α)} {ps qs : List (Part α)} (hi : Balanced inside ps)
      (h : Balanced ts qs) :
      Balanced (.opening :: (inside ++ .closing :: ts)) (.group (readParts ps) inside :: qs)

namespace Balanced

variable {ts us : List (Token α)} {ps qs : List (Part α)}

theorem tokens_eq (h : Balanced ts ps) : ps.flatMap Part.tokens = ts := by
  induction h with
  | nil => rfl
  | token _ _ _ ih => rw [List.flatMap_cons, ih]; rfl
  | group _ _ _ ih => simp [Part.tokens, ih]

theorem append (h : Balanced ts ps) (h' : Balanced us qs) : Balanced (ts ++ us) (ps ++ qs) := by
  induction h with
  | nil => exact h'
  | token ho hc _ ih => exact .token ho hc ih
  | group hi _ _ ih =>
    rw [List.cons_append, List.append_assoc, List.cons_append]
    exact .group hi ih

theorem flatMap {γ : Type} {f : γ → List (Token α)} {g : γ → List (Part α)} {l : List γ}
    (h : ∀ a ∈ l, Balanced (f a) (g a)) : Balanced (l.flatMap f) (l.flatMap g) := by
  induction l with
  | nil => exact .nil
  | cons a l ih =>
    rw [List.forall_mem_cons] at h
    exact h.1.append (ih h.2)

theorem parenthesized (h : Balanced ts ps) :
    Balanced (.opening :: (ts ++ [.closing])) [.group (readParts ps) ts] :=
  .group h .nil

theorem nest_append (h : Balanced ts ps) (outer : List (List (Part α))) (here : List (Part α))
    (rest : List (Token α)) : nest outer here (ts ++ rest) = nest outer (here ++ ps) rest := by
  induction h generalizing outer here rest with
  | nil => rw [List.nil_append, List.append_nil]
  | @token t ts ps ho hc _ ih =>
    rw [List.append_cons here, ← ih, List.cons_append]
    cases t with
    | opening => exact absurd rfl ho
    | closing => exact absurd rfl hc
    | word letters | sign c | hole a => rfl
  | @group inside ts ps qs hi _ ihi ih =>
    rw [List.append_cons here, ← ih, List.cons_append, List.append_assoc, List.cons_append, nest,
      ihi, List.nil_append, nest, hi.tokens_eq]

theorem nest_eq (h : Balanced ts ps) : nest [] [] ts = some ps := by
  have := h.nest_append [] [] []
  rwa [List.append_nil] at this

theorem outermost_succ (h : Balanced ts ps) (depth : ℕ) (rest : List (Token α)) :
    outermost (depth + 1) (ts ++ rest) = outermost (depth + 1) rest := by
  induction h generalizing depth rest with
  | nil => rfl
  | @token t ts ps ho hc _ ih =>
    cases t with
    | opening => exact absurd rfl ho
    | closing => exact absurd rfl hc
    | word letters | sign c | hole a => exact ih depth rest
  | group _ _ ihi ih =>
    rw [List.cons_append, List.append_assoc, List.cons_append, outermost, ihi, outermost]
    exact ih depth rest

theorem mem_of_mem_outermost (h : Balanced ts ps) {t : Token α} (ht : t ∈ outermost 0 ts) :
    .token t ∈ ps := by
  induction h with
  | nil => exact absurd ht (by simp [outermost])
  | @token u ts ps ho hc _ ih =>
    have hu : outermost 0 (u :: ts) = u :: outermost 0 ts := by
      cases u with
      | opening => exact absurd rfl ho
      | closing => exact absurd rfl hc
      | word letters | sign c | hole a => rfl
    rw [hu, List.mem_cons] at ht
    rcases ht with rfl | ht
    · exact List.mem_cons_self
    · exact List.mem_cons_of_mem _ (ih ht)
  | group hi _ _ ih =>
    rw [outermost, hi.outermost_succ, outermost] at ht
    exact List.mem_cons_of_mem _ (ih ht)

end Balanced

/-! ## Parts without connectives -/

/-- No connective stands among the parts. -/
def Unjoined (ps : List (Part α)) : Prop := ∀ op : Connective, ∀ p ∈ ps, p.isWord op.name = false

theorem Unjoined.cons {u : Token α} {ps : List (Part α)} (h : Unjoined ps)
    (hu : u.isPlain = true) : Unjoined (.token u :: ps) := by
  intro op
  rw [List.forall_mem_cons]
  exact ⟨u.isWord_eq_false_of_isPlain hu (by cases op <;> simp [Connective.name]), h op⟩

theorem Unjoined.append {ps qs : List (Part α)} (h : Unjoined ps) (h' : Unjoined qs) :
    Unjoined (ps ++ qs) := fun op p hp =>
  (List.mem_append.1 hp).elim (h op p) (h' op p)

/-- Tokens with no connective outside matching parentheses. -/
def IsStretch (ts : List (Token α)) : Prop := ∃ ps, Balanced ts ps ∧ Unjoined ps

namespace IsStretch

variable {ts us : List (Token α)}

theorem nil : IsStretch ([] : List (Token α)) := ⟨[], .nil, fun _ => by simp⟩

theorem cons {u : Token α} (hu : u.isPlain = true) (h : IsStretch ts) : IsStretch (u :: ts) := by
  obtain ⟨ps, hb, hps⟩ := h
  exact ⟨_, .token (u.ne_opening_of_isPlain hu) (u.ne_closing_of_isPlain hu) hb, hps.cons hu⟩

theorem append (h : IsStretch ts) (h' : IsStretch us) : IsStretch (ts ++ us) := by
  obtain ⟨ps, hb, hps⟩ := h
  obtain ⟨qs, hb', hqs⟩ := h'
  exact ⟨_, hb.append hb', hps.append hqs⟩

theorem parenthesized (h : IsStretch ts) : IsStretch (.opening :: (ts ++ [.closing])) := by
  obtain ⟨ps, hb, -⟩ := h
  refine ⟨_, hb.parenthesized, fun op => ?_⟩
  rw [List.forall_mem_singleton]
  rfl

theorem flatMap {γ : Type} {f : γ → List (Token α)} {l : List γ}
    (h : ∀ a ∈ l, IsStretch (f a)) : IsStretch (l.flatMap f) := by
  induction l with
  | nil => exact nil
  | cons a l ih =>
    rw [List.forall_mem_cons] at h
    exact h.1.append (ih h.2)

end IsStretch

theorem readChain_of_not {ps : List (Part α)} {op : Connective}
    (h : ∀ p ∈ ps, p.isWord op.name = false) (readEach : List (Part α) → Option (TokenTree α)) :
    readChain op readEach ps = readEach ps := by
  unfold readChain
  rw [List.splitOnP_eq_singleton h, List.mapM_cons, List.mapM_nil]
  cases readEach ps <;> rfl

theorem splitOnP_joined {γ δ : Type} {p : δ → Bool} {sep : δ} (hsep : p sep = true)
    {f : γ → List δ} {l : List δ} {as : List γ} (hl : ∀ b ∈ l, p b = false)
    (has : ∀ a ∈ as, ∀ b ∈ f a, p b = false) :
    (l ++ as.flatMap fun a => sep :: f a).splitOnP p = l :: as.map f := by
  induction as generalizing l with
  | nil => rw [List.flatMap_nil, List.append_nil, List.splitOnP_eq_singleton hl, List.map_nil]
  | cons a as ih =>
    rw [List.forall_mem_cons] at has
    rw [List.flatMap_cons, List.cons_append, List.splitOnP_append_cons _ _ hsep,
      List.splitOnP_eq_singleton hl, ih has.1 has.2, List.map_cons, List.singleton_append]

theorem mapM_eq_some_map {γ δ ε : Type} {f : γ → δ} {r : δ → Option ε} {g : γ → ε} {l : List γ}
    (h : ∀ a ∈ l, r (f a) = some (g a)) : (l.map f).mapM r = some (l.map g) := by
  induction l with
  | nil => rfl
  | cons a l ih =>
    rw [List.forall_mem_cons] at h
    rw [List.map_cons, List.mapM_cons, h.1, ih h.2]
    rfl

theorem isWord_name (op : Connective) :
    (Part.token (.word op.name.toList) : Part α).isWord op.name = true := by
  cases op <;> rfl

/-- Parts that read as operands, with a connective between them. -/
theorem readParts_joined {γ : Type} (op : Connective) {ps : List (Part α)} {t : TokenTree α}
    (hu : Unjoined ps) (hr : readOperand ps = some t) {rest : List γ} {qs : γ → List (Part α)}
    {trees : γ → TokenTree α} (hus : ∀ r ∈ rest, Unjoined (qs r))
    (hrs : ∀ r ∈ rest, readOperand (qs r) = some (trees r)) :
    readParts (ps ++ rest.flatMap fun r => .token (.word op.name.toList) :: qs r) =
      some (.join op t (rest.map trees)) := by
  have hsplit := splitOnP_joined (isWord_name op) (hu op) fun r hr => hus r hr op
  cases op with
  | and =>
    have hor : ∀ p ∈ ps ++ rest.flatMap fun r =>
        Part.token (.word Connective.and.name.toList) :: qs r,
        p.isWord Connective.or.name = false := by
      simp only [List.mem_append, List.mem_flatMap, List.mem_cons]
      rintro p (hp | ⟨r, hr, rfl | hp⟩)
      · exact hu .or p hp
      · rfl
      · exact hus r hr .or p hp
    rw [readParts, readChain_of_not hor, readChain, hsplit, List.mapM_cons, hr,
      mapM_eq_some_map hrs]
    rfl
  | or =>
    have hrs' : ∀ r ∈ rest, readChain .and readOperand (qs r) = some (trees r) := by
      intro r hr
      rw [readChain_of_not (hus r hr .and), hrs r hr]
    rw [readParts, readChain, hsplit, List.mapM_cons, readChain_of_not (hu .and), hr,
      mapM_eq_some_map hrs']
    rfl

/-! ## Operands -/

/-- Tokens that read as `t` in the place of an operand. -/
def IsOperand (ts : List (Token α)) (t : TokenTree α) : Prop :=
  ∃ ps, Balanced ts ps ∧ Unjoined ps ∧ readOperand ps = some t

namespace IsOperand

variable {ts : List (Token α)} {t : TokenTree α}

theorem readTokens_eq (h : IsOperand ts t) : readTokens ts = some t := by
  obtain ⟨ps, hb, hu, hr⟩ := h
  unfold readTokens
  rw [hb.nest_eq, Option.bind_some, readParts, readChain_of_not (hu .or),
    readChain_of_not (hu .and), hr]

theorem outermost (h : IsOperand ts t) :
    ∀ u ∈ Sql.outermost 0 ts, ∀ op : Connective, u.isWord op.name = false := by
  obtain ⟨ps, hb, hu, -⟩ := h
  exact fun u hm op => hu op _ (hb.mem_of_mem_outermost hm)

/-- A comparison: a word other than `NOT`, and a stretch after it. -/
theorem atom {u : Token α} (hu : u.isPlain = true) (hnot : u.isWord "NOT" = false)
    (h : IsStretch ts) : IsOperand (u :: ts) (.atom (u :: ts)) := by
  obtain ⟨ps, hb, hps⟩ := h
  refine ⟨.token u :: ps, .token (u.ne_opening_of_isPlain hu) (u.ne_closing_of_isPlain hu) hb,
    hps.cons hu, ?_⟩
  rw [readOperand, hnot, if_neg Bool.false_ne_true, hb.tokens_eq]

theorem not (h : IsOperand ts t) : IsOperand (.word "NOT".toList :: ts) (.not t) := by
  obtain ⟨ps, hb, hu, hr⟩ := h
  refine ⟨.token (.word "NOT".toList) :: ps, .token (by simp) (by simp) hb, fun op => ?_, ?_⟩
  · rw [List.forall_mem_cons]
    exact ⟨by cases op <;> rfl, hu op⟩
  · have hnot : (Token.word "NOT".toList : Token α).isWord "NOT" = true := by rfl
    rw [readOperand, if_pos hnot, hr, Option.map_some]

/-- What stands in parentheses after `NOT`, and around any operand. -/
theorem parenthesized (h : IsOperand ts t) : IsOperand (.opening :: (ts ++ [.closing])) t := by
  have hread := h.readTokens_eq
  obtain ⟨ps, hb, -, -⟩ := h
  unfold readTokens at hread
  rw [hb.nest_eq, Option.bind_some] at hread
  refine ⟨_, hb.parenthesized, fun op => ?_, ?_⟩
  · rw [List.forall_mem_singleton]
    rfl
  · rw [readOperand, hread]

/-- Operands joined by a connective, in parentheses. -/
theorem clause {γ : Type} (op : Connective) (h : IsOperand ts t) {rest : List γ}
    {us : γ → List (Token α)} {trees : γ → TokenTree α}
    (hrest : ∀ r ∈ rest, IsOperand (us r) (trees r)) :
    IsOperand
      (.opening :: ((ts ++ rest.flatMap fun r => .word op.name.toList :: us r) ++ [.closing]))
      (.join op t (rest.map trees)) := by
  obtain ⟨ps, hb, hu, hr⟩ := h
  choose! qs hqs using hrest
  have hall : Balanced (ts ++ rest.flatMap fun r => .word op.name.toList :: us r)
      (ps ++ rest.flatMap fun r => .token (.word op.name.toList) :: qs r) :=
    hb.append (.flatMap fun r hr => .token (by simp) (by simp) (hqs r hr).1)
  have hread := readParts_joined op hu hr (fun r hr => (hqs r hr).2.1) fun r hr => (hqs r hr).2.2
  refine ⟨_, hall.parenthesized, fun op => ?_, ?_⟩
  · rw [List.forall_mem_singleton]
    rfl
  · rw [readOperand, hread]

end IsOperand

end SearchFilter.Sql
