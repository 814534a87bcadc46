import Mathlib.Data.List.Basic
import SearchFilter.Proofs.Collection
import SearchFilter.Proofs.Except

/-!
# Collections gathered term by term

A list of terms can be gathered one by one: a term that is a collection, or of another kind than the
first, ends it; one that is there already is passed over; any other goes to the end. That comes to
the same as to look at the kinds of all terms first and to drop the repetitions afterwards. The
exact texts of a list need no look at their kinds.

Main statements: `TermCollection.gather_eq` and `TermCollection.outcomes_of_ofTerms?`.
-/

namespace SearchFilter

/-! ## First occurrences -/

section
variable {α β : Type} [DecidableEq α] [DecidableEq β]

/-- A list has the elements of another one, in the order in which each of them comes first there. -/
structure ListsFirsts (ts l : List α) : Prop where
  mem_iff : ∀ a, a ∈ l ↔ a ∈ ts
  order : l.Pairwise fun a b => ts.idxOf a < ts.idxOf b

theorem ListsFirsts.unique {ts l l' : List α} (h : ListsFirsts ts l) (h' : ListsFirsts ts l') :
    l = l' := by
  have hnodup : ∀ {l : List α}, ListsFirsts ts l → l.Nodup := fun h =>
    h.order.imp fun hlt heq => absurd (heq ▸ hlt) (Nat.lt_irrefl _)
  have hperm : l.Perm l' := (List.perm_ext_iff_of_nodup (hnodup h) (hnodup h')).2 fun a =>
    (h.mem_iff a).trans (h'.mem_iff a).symm
  exact hperm.eq_of_pairwise (fun a b _ _ hab hba => absurd hab (Nat.lt_asymm hba)) h.order h'.order

theorem listsFirsts_firstOccurrences (ts : List α) : ListsFirsts ts (firstOccurrences ts) := by
  refine ⟨fun a => mem_firstOccurrences, ?_⟩
  induction ts with
  | nil => exact List.Pairwise.nil
  | cons a ts ih =>
    have hlater : ∀ b ∈ (firstOccurrences ts).filter (· ≠ a),
        (a :: ts).idxOf b = ts.idxOf b + 1 := by
      intro b hb
      have hne : b ≠ a := of_decide_eq_true (List.mem_filter.1 hb).2
      exact List.idxOf_cons_ne ts hne.symm
    refine List.Pairwise.cons (fun b hb => ?_) ?_
    · rw [List.idxOf_cons_self, hlater b hb]
      exact Nat.succ_pos _
    · refine (ih.filter _).imp_of_mem fun hb hc hlt => ?_
      rw [hlater _ hb, hlater _ hc]
      exact Nat.succ_lt_succ hlt

theorem firstOccurrences_map {f : α → β} (hf : Function.Injective f) (l : List α) :
    firstOccurrences (l.map f) = (firstOccurrences l).map f := by
  induction l with
  | nil => rfl
  | cons a l ih =>
    rw [List.map_cons, firstOccurrences, firstOccurrences, List.map_cons, ih, List.filter_map]
    congr 2
    exact List.filter_congr fun b _ => by simp [hf.eq_iff]

/-- Puts an element at the end of a list, unless it is there. -/
def insertNew (kept : List α) (a : α) : List α := if a ∈ kept then kept else kept ++ [a]

/-- To put the elements of a list one by one after those kept is to put its first occurrences after
them that are not kept yet. -/
theorem foldl_insertNew (kept l : List α) :
    l.foldl insertNew kept = kept ++ (firstOccurrences l).filter (· ∉ kept) := by
  induction l generalizing kept with
  | nil => simp [firstOccurrences]
  | cons a l ih =>
    rw [List.foldl_cons, ih, firstOccurrences, insertNew]
    by_cases ha : a ∈ kept
    · rw [if_pos ha, List.filter_cons_of_neg (by simpa using ha), List.filter_filter]
      congr 1
      refine List.filter_congr fun b _ => ?_
      by_cases hb : b ∈ kept
      · simp [hb]
      · have hne : b ≠ a := fun heq => hb (heq ▸ ha)
        simp [hb, hne]
    · rw [if_neg ha, List.filter_cons_of_pos (by simpa using ha), List.filter_filter,
        List.append_assoc, List.singleton_append]
      congr 2
      exact List.filter_congr fun b _ => by simp

theorem foldl_insertNew_nil (l : List α) : l.foldl insertNew [] = firstOccurrences l := by
  simp [foldl_insertNew]

end

/-! ## First faults -/

/-- The first element that is not like those before it is the first of all, or comes later and the
first is like those before it. -/
theorem exists_first_cons_iff {α : Type} {P Q : α → Prop} {a : α} {l : List α} :
    (∃ before x after, a :: l = before ++ x :: after ∧ (∀ b ∈ before, P b) ∧ Q x) ↔
      Q a ∨ P a ∧ ∃ before x after, l = before ++ x :: after ∧ (∀ b ∈ before, P b) ∧ Q x := by
  constructor
  · rintro ⟨before, x, after, heq, hbefore, hx⟩
    cases before with
    | nil =>
      obtain ⟨rfl, -⟩ := List.cons.inj heq
      exact .inl hx
    | cons b before =>
      obtain ⟨rfl, rfl⟩ := List.cons.inj heq
      obtain ⟨hb, hbefore⟩ := List.forall_mem_cons.1 hbefore
      exact .inr ⟨hb, before, x, after, rfl, hbefore, hx⟩
  · rintro (ha | ⟨ha, before, x, after, rfl, hbefore, hx⟩)
    · exact ⟨[], a, l, rfl, List.forall_mem_nil _, ha⟩
    · exact ⟨a :: before, x, after, rfl, List.forall_mem_cons.2 ⟨ha, hbefore⟩, hx⟩

theorem Term.kind_scalar (s : Scalar) : (Term.scalar s).kind = s.kind := rfl

namespace TermCollection

/-- What a term breaks, where kind `k` is asked for. -/
def Breaks (k : TermKind) (t : Term) (e : CollectionError) : Prop :=
  (t.kind = .collection ∧ e = .nested) ∨
    t.kind ≠ .collection ∧ t.kind ≠ k ∧ e = .mixedKinds k t.kind

variable {k : TermKind} {ts : List Term} {t : Term} {e : CollectionError}

theorem breaks_collection_iff {c : TermCollection} :
    Breaks k (.collection c) e ↔ e = .nested := by
  simp [Breaks, Term.kind]

theorem breaks_scalar_iff {s : Scalar} :
    Breaks k (.scalar s) e ↔ s.kind ≠ k ∧ e = .mixedKinds k s.kind := by
  simp [Breaks, Term.kind, s.kind_ne_collection]

theorem ofKind?_eq_error_iff :
    ofKind? k ts = .error e ↔ ∃ before t after, ts = before ++ t :: after ∧
      (∀ u ∈ before, u.kind ≠ .collection ∧ u.kind = k) ∧ Breaks k t e := by
  induction ts with
  | nil => simp [ofKind?]
  | cons t ts ih =>
    rw [exists_first_cons_iff, ← ih]
    cases t with
    | collection c =>
      rw [breaks_collection_iff, ofKind?]
      simp [Term.kind, eq_comm]
    | scalar s =>
      rw [breaks_scalar_iff, ofKind?]
      by_cases hs : s.kind = k
      · have hk : k ≠ .collection := hs ▸ s.kind_ne_collection
        rw [dif_pos hs]
        cases ofKind? k ts <;> simp [Term.kind, hs, hk]
      · rw [dif_neg hs]
        simp [Term.kind, hs, eq_comm]

theorem ofTerms?_scalar_eq_error_iff {s : Scalar} :
    ofTerms? (.scalar s :: ts) = .error e ↔ ofKind? s.kind (.scalar s :: ts) = .error e := by
  rw [ofTerms?]
  cases ofKind? s.kind (.scalar s :: ts) <;> simp

/-- A list fails by its first term that is a collection or of another kind than the first. -/
theorem ofTerms?_eq_error_iff :
    ofTerms? ts = .error e ↔ ∃ first ∈ ts.head?, ∃ before t after, ts = before ++ t :: after ∧
      (∀ u ∈ before, u.kind ≠ .collection ∧ u.kind = first.kind) ∧ Breaks first.kind t e := by
  cases ts with
  | nil => simp [ofTerms?]
  | cons t ts =>
    simp only [List.head?_cons, Option.mem_some_iff, exists_eq_left']
    cases t with
    | collection c =>
      rw [exists_first_cons_iff, breaks_collection_iff, ofTerms?]
      simp [Term.kind, eq_comm]
    | scalar s => exact ofTerms?_scalar_eq_error_iff.trans ofKind?_eq_error_iff

/-- No term is a collection, and all are of one kind. -/
def Uniform (ts : List Term) : Prop :=
  (∀ t ∈ ts, t.kind ≠ .collection) ∧ ∀ t ∈ ts, ∀ u ∈ ts, t.kind = u.kind

theorem exists_ofTerms?_iff : (∃ c, ofTerms? ts = .ok c) ↔ Uniform ts := by
  constructor
  · rintro ⟨c, hc⟩
    exact kind_eq_of_ofTerms? hc
  · rintro ⟨hscalar, hsame⟩
    cases h : ofTerms? ts with
    | ok c => exact ⟨c, rfl⟩
    | error e =>
      obtain ⟨first, hfirst, before, t, after, hts, -, hbreaks⟩ := ofTerms?_eq_error_iff.1 h
      have ht : t ∈ ts := hts ▸ List.mem_append_right before List.mem_cons_self
      rcases hbreaks with ⟨hcollection, -⟩ | ⟨-, hkind, -⟩
      · exact absurd hcollection (hscalar t ht)
      · exact absurd (hsame t ht first (List.mem_of_mem_head? hfirst)) hkind

/-- The terms that are kept, each where it comes first. -/
theorem map_members_of_ofTerms? {c : TermCollection} (h : ofTerms? ts = .ok c) :
    c.members.map .scalar = firstOccurrences ts := by
  obtain ⟨l, rfl, hmembers⟩ := members_ofTerms? h
  rw [hmembers, firstOccurrences_map fun _ _ => Term.scalar.inj]

theorem eq_of_map_members {c c' : TermCollection}
    (h : c.members.map Term.scalar = c'.members.map Term.scalar) : c = c' := by
  have hmembers := List.map_injective_iff.2 (fun _ _ => Term.scalar.inj) h
  cases c
  cases c'
  cases hmembers
  rfl

/-! ## Term by term -/

/-- Takes up one more term after those kept, of which the first sets the kind. -/
def takeUp (kept : List Term) (t : Term) : Except CollectionError (List Term) :=
  if t.kind = .collection then .error .nested
  else
    match kept.head? with
    | none => .ok (insertNew kept t)
    | some first =>
      if first.kind = t.kind then .ok (insertNew kept t)
      else .error (.mixedKinds first.kind t.kind)

/-- Takes up the terms of a list one by one. -/
def gather (ts : List Term) : Except CollectionError (List Term) := ts.foldlM takeUp []

theorem takeUp_scalar {kept : List Term} (hkept : kept.head?.map Term.kind = some k) (s : Scalar) :
    takeUp kept (.scalar s) =
      if s.kind = k then .ok (insertNew kept (.scalar s)) else .error (.mixedKinds k s.kind) := by
  obtain ⟨first, hfirst, rfl⟩ := Option.map_eq_some_iff.1 hkept
  rw [takeUp, Term.kind_scalar, if_neg s.kind_ne_collection, hfirst]
  simp only [eq_comm]

/-- The first of the terms kept stays the first. -/
theorem head?_insertNew {kept : List Term} (hkept : kept.head?.map Term.kind = some k) (t : Term) :
    (insertNew kept t).head?.map Term.kind = some k := by
  unfold insertNew
  split
  · exact hkept
  · rw [List.head?_append, ← hkept]
    cases kept with
    | nil => cases hkept
    | cons first kept => rfl

/-- Once a kind is set, the kinds of all further terms can be looked at before any of them is taken
up. -/
theorem foldlM_takeUp {kept : List Term} (hkept : kept.head?.map Term.kind = some k)
    (ts : List Term) :
    ts.foldlM takeUp kept =
      (ofKind? k ts).map fun l => (l.1.map Term.scalar).foldl insertNew kept := by
  induction ts generalizing kept with
  | nil => rfl
  | cons t ts ih =>
    rw [List.foldlM_cons]
    cases t with
    | collection c => rfl
    | scalar s =>
      rw [takeUp_scalar hkept, ofKind?]
      by_cases hs : s.kind = k
      · rw [if_pos hs, dif_pos hs]
        refine (ih (head?_insertNew hkept (.scalar s))).trans ?_
        cases ofKind? k ts <;> rfl
      · rw [if_neg hs, dif_neg hs]
        rfl

/-- To take up the terms one by one is to look at all their kinds, and then to keep each term where
it comes first. -/
theorem gather_eq (ts : List Term) :
    gather ts = (ofTerms? ts).map fun c => c.members.map Term.scalar := by
  cases ts with
  | nil => rfl
  | cons t ts =>
    cases t with
    | collection c => rfl
    | scalar s =>
      have hfirst : gather (.scalar s :: ts) = ts.foldlM takeUp [.scalar s] := by
        rw [gather, List.foldlM_cons, takeUp, Term.kind_scalar, if_neg s.kind_ne_collection]
        rfl
      have hkept : ∀ l : List Scalar, (l.map Term.scalar).foldl insertNew [.scalar s] =
          (firstOccurrences (s :: l)).map Term.scalar := by
        intro l
        rw [← firstOccurrences_map fun _ _ => Term.scalar.inj, ← foldl_insertNew_nil]
        rfl
      have hrest : ts.foldlM takeUp [.scalar s] = (ofKind? s.kind ts).map fun l =>
          (l.1.map Term.scalar).foldl insertNew [.scalar s] := foldlM_takeUp rfl ts
      rw [hfirst, hrest, ofTerms?, ofKind?, dif_pos rfl]
      cases ofKind? s.kind ts with
      | error e => rfl
      | ok l => exact congrArg Except.ok (hkept l.1)

/-- The collection of a list is the one that has its terms, each where it comes first. -/
theorem ofTerms?_eq_ok_iff {c : TermCollection} :
    ofTerms? ts = .ok c ↔ Uniform ts ∧ ListsFirsts ts (c.members.map .scalar) := by
  have hlists : ∀ {c}, ofTerms? ts = .ok c → ListsFirsts ts (c.members.map .scalar) := fun h =>
    map_members_of_ofTerms? h ▸ listsFirsts_firstOccurrences ts
  constructor
  · exact fun h => ⟨exists_ofTerms?_iff.1 ⟨c, h⟩, hlists h⟩
  · rintro ⟨huniform, hc⟩
    obtain ⟨c', hc'⟩ := exists_ofTerms?_iff.2 huniform
    rw [hc', eq_of_map_members ((hlists hc').unique hc)]

/-- Exact texts taken up one by one, with no look at their kinds. -/
theorem foldl_insertNew_exact (values : List String) :
    values.foldl (fun kept v => insertNew kept (Term.exact v)) [] =
      (Term.exactValues values).members.map Term.scalar := by
  have hexact : values.map Term.exact = (values.map fun v => .text (.exact v)).map Term.scalar := by
    rw [List.map_map]
    rfl
  rw [← List.foldl_map, foldl_insertNew_nil, hexact,
    firstOccurrences_map fun _ _ => Term.scalar.inj]
  rfl

/-- The collection of exact texts is the one that comes of the texts as terms. -/
theorem ofTerms?_map_exact (values : List String) :
    Term.ofTerms? (values.map Term.exact) = .ok (Term.exactValues values) := by
  have hkind : ∀ t ∈ values.map Term.exact, t.kind = .exact := List.forall_mem_map.2 fun _ _ => rfl
  have huniform : Uniform (values.map Term.exact) :=
    ⟨fun t ht => hkind t ht ▸ nofun, fun t ht u hu => (hkind t ht).trans (hkind u hu).symm⟩
  obtain ⟨c, hc⟩ := exists_ofTerms?_iff.2 huniform
  have hmembers : c.members.map Term.scalar = (ofValues values).members.map Term.scalar := by
    rw [map_members_of_ofTerms? hc, ← foldl_insertNew_nil, List.foldl_map]
    exact foldl_insertNew_exact values
  rw [Term.ofTerms?, hc, eq_of_map_members hmembers]
  rfl

/-- What becomes of a list of terms, which can be taken up one by one: when it is a collection and
which, and by which term it fails otherwise. A collection is built again from its members, and the
one of exact texts without a look at their kinds. -/
theorem outcomes_of_ofTerms? (ts : List Term) (values : List String) :
    gather ts = (ofTerms? ts).map (fun c => c.members.map Term.scalar) ∧
    ((∃ c, ofTerms? ts = .ok c) ↔ Uniform ts) ∧
    (∀ c, ofTerms? ts = .ok c ↔ Uniform ts ∧ ListsFirsts ts (c.members.map .scalar)) ∧
    (∀ e, ofTerms? ts = .error e ↔
      ∃ first ∈ ts.head?, ∃ before t after, ts = before ++ t :: after ∧
        (∀ u ∈ before, u.kind ≠ .collection ∧ u.kind = first.kind) ∧ Breaks first.kind t e) ∧
    (∀ c : TermCollection, ofTerms? (c.members.map .scalar) = .ok c) ∧
    values.foldl (fun kept v => insertNew kept (Term.exact v)) [] =
      (Term.exactValues values).members.map Term.scalar ∧
    Term.ofTerms? (values.map Term.exact) = .ok (Term.exactValues values) :=
  ⟨gather_eq ts, exists_ofTerms?_iff, fun _ => ofTerms?_eq_ok_iff, fun _ => ofTerms?_eq_error_iff,
    ofTerms?_members, foldl_insertNew_exact values, ofTerms?_map_exact values⟩

example : (TermCollection.ofTerms? [.exact "b", .exact "b", .lenient "a", .null]).map (·.members) =
    .error (.mixedKinds .exact .lenient) := by
  decide +kernel

end TermCollection

end SearchFilter
