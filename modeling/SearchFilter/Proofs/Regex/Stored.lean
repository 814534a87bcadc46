import Mathlib.Data.List.Infix

/-!
# Lists of values in one text

A list is stored with quotes around its values, commas between them and brackets around them all. A
word that reaches over no separator is found in the whole text as it is found in the text of one
value, also when a mark of the start or of the end of a value has to stand next to it.

Main statement: `StaysInside.exists_single`.
-/

namespace SearchFilter

/-- The text of a list of values. -/
def storedList (values : List String) : String :=
  "[" ++ ",".intercalate (values.map fun v => "\"" ++ v ++ "\"") ++ "]"

/-- The values of a list with quotes around them and commas between them. -/
def listed (values : List String) : List Char :=
  [','].intercalate (values.map fun v => '"' :: v.toList ++ ['"'])

theorem toList_storedList (values : List String) :
    (storedList values).toList = '[' :: listed values ++ [']'] := by
  rw [storedList, listed, String.toList_append, String.toList_append, String.toList_intercalate,
    List.map_map]
  have hvalue : (String.toList ∘ fun v : String => "\"" ++ v ++ "\"") =
      fun v => '"' :: v.toList ++ ['"'] := by
    funext v
    simp
  rw [hvalue]
  rfl

theorem listed_cons_cons (v second : String) (rest : List String) :
    listed (v :: second :: rest) = '"' :: v.toList ++ ['"'] ++ ',' :: listed (second :: rest) := by
  rw [listed, List.map_cons, List.map_cons, List.intercalate_cons_cons, List.append_assoc]
  rfl

theorem head?_listed_cons (v : String) (rest : List String) :
    (listed (v :: rest)).head? = some '"' := by
  cases rest with
  | nil =>
    rw [listed, List.map_singleton, List.intercalate_singleton, List.cons_append, List.head?_cons]
  | cons second rest => rw [listed_cons_cons, List.cons_append, List.cons_append, List.head?_cons]

/-- What may stand before a word that is bound to the start of a value, or to nothing. -/
def Opens (bound : Bool) (m : List Char) : Prop :=
  if bound then m = ['[', '"'] ∨ m = [',', '"'] else m = []

/-- What may stand after a word that is bound to the end of a value, or to nothing. -/
def Closes (bound : Bool) (n : List Char) : Prop :=
  if bound then n = ['"', ','] ∨ n = ['"', ']'] else n = []

/-- A word that is no separator and has none in it together with a quote. -/
structure StaysInside (w : List Char) : Prop where
  ne_comma : w ≠ [',']
  no_end : ¬ ['"', ','] <:+: w
  no_start : ¬ [',', '"'] <:+: w

theorem staysInside_of_not_mem {w : List Char} (hquote : '"' ∉ w) (hcomma : w ≠ [',']) :
    StaysInside w where
  ne_comma := hcomma
  no_end h := hquote (h.subset (by decide))
  no_start h := hquote (h.subset (by decide))

/-! ## Words at a separator -/

section
variable {α : Type} {a b w x y u v : List α} {c : α}

theorem append_eq_append_cons (h : x ++ y = u ++ c :: v) :
    (∃ z, x = u ++ c :: z ∧ v = z ++ y) ∨ ∃ z, u = x ++ z ∧ y = z ++ c :: v := by
  rcases List.append_eq_append_iff.1 h with ⟨z, rfl, hy⟩ | ⟨z, rfl, hv⟩
  · exact .inr ⟨z, rfl, hy⟩
  · cases z with
    | nil => exact .inr ⟨[], by simp, hv.symm⟩
    | cons d z =>
      rw [List.cons_append, List.cons.injEq] at hv
      obtain ⟨rfl, hv⟩ := hv
      exact .inl ⟨z, rfl, hv⟩

/-- A word in two texts with a character between them is in one of them or has that character. -/
theorem infix_append_cons (h : w <:+: a ++ c :: b) :
    w <:+: a ∨ w <:+: b ∨ ∃ u v, w = u ++ c :: v ∧ u <:+ a ∧ v <+: b := by
  obtain ⟨before, after, heq⟩ := h
  rw [List.append_assoc] at heq
  rcases append_eq_append_cons heq with ⟨z, -, hb⟩ | ⟨z, ha, hw⟩
  · exact .inr (.inl ⟨z, after, by rw [hb, List.append_assoc]⟩)
  · rcases append_eq_append_cons hw with ⟨v, hw, hb⟩ | ⟨z', hz, -⟩
    · exact .inr (.inr ⟨z, v, hw, ⟨before, ha.symm⟩, ⟨after, hb.symm⟩⟩)
    · exact .inl ⟨before, z', by rw [ha, hz, List.append_assoc]⟩

end

/-- The mark of a start has its comma first. -/
theorem Opens.of_comma {opens : Bool} {m u z : List Char} (hm : Opens opens m)
    (h : m = u ++ ',' :: z) : opens = true ∧ u = [] ∧ z = ['"'] := by
  subst h
  cases opens with
  | false => simp [Opens] at hm
  | true => rcases u with _ | ⟨c, _ | ⟨d, u⟩⟩ <;> simp_all [Opens]

/-- The mark of an end has its comma last. -/
theorem Closes.of_comma {closes : Bool} {n z v : List Char} (hn : Closes closes n)
    (h : n = z ++ ',' :: v) : closes = true ∧ z = ['"'] ∧ v = [] := by
  subst h
  cases closes with
  | false => simp [Closes] at hn
  | true => rcases z with _ | ⟨c, _ | ⟨d, z⟩⟩ <;> simp_all [Closes]

namespace StaysInside

variable {w m n a b u v : List Char} {opens closes : Bool}

/-- A comma in a word that stays inside is no separator: on one side of it there is a character of
the word that is no quote. -/
theorem not_separator (hw : StaysInside w) (ha : a.getLast? = some '"') (hb : b.head? = some '"')
    (heq : w = u ++ ',' :: v) (hu : m ++ u <:+ a) (hv : v ++ n <+: b) : False := by
  subst heq
  have hu_nil : u = [] := by
    rcases List.eq_nil_or_concat u with hu' | ⟨u, c, rfl⟩
    · exact hu'
    · obtain ⟨before, rfl⟩ := hu
      rw [List.concat_eq_append] at ha hw
      have hc : c = '"' := by simpa using ha
      exact absurd ⟨u, v, by simp [hc]⟩ hw.no_end
  have hv_nil : v = [] := by
    cases v with
    | nil => rfl
    | cons c v =>
      obtain ⟨after, rfl⟩ := hv
      have hc : c = '"' := by simpa using hb
      exact absurd ⟨u, v, by simp [hc]⟩ hw.no_start
  subst hu_nil hv_nil
  exact hw.ne_comma rfl

/-- Where a separator is between two texts, a word that stays inside is in one of them, together
with the mark it is bound to: the separator is a part of a mark only, and a bracket will do in its
place. -/
theorem infix_of_separated (hw : StaysInside w) (ha : a.getLast? = some '"')
    (hb : b.head? = some '"') (hm : Opens opens m) (hn : Closes closes n)
    (h : m ++ w ++ n <:+: a ++ ',' :: b) :
    (∃ n', Closes closes n' ∧ m ++ w ++ n' <:+: a ++ [']']) ∨
      ∃ m', Opens opens m' ∧ m' ++ w ++ n <:+: '[' :: b := by
  rcases infix_append_cons h with hleft | hright | ⟨u, v, heq, hu, hv⟩
  · exact .inl ⟨n, hn, hleft.trans (List.prefix_append a _).isInfix⟩
  · exact .inr ⟨m, hm, hright.trans (List.suffix_cons _ b).isInfix⟩
  · rw [List.append_assoc] at heq
    rcases append_eq_append_cons heq with ⟨z, hmz, hvz⟩ | ⟨z, huz, hwz⟩
    · -- the separator starts the mark of a start
      obtain ⟨rfl, -, rfl⟩ := hm.of_comma hmz
      rw [hvz] at hv
      refine .inr ⟨['[', '"'], .inl rfl, ?_⟩
      rw [List.append_assoc]
      exact (List.prefix_cons_inj '[').2 hv |>.isInfix
    · rcases append_eq_append_cons hwz with ⟨z', hw', hvz⟩ | ⟨z', hz, hnz⟩
      · exact (hw.not_separator ha hb hw' (huz ▸ hu) (hvz ▸ hv)).elim
      · -- the separator ends the mark of an end
        obtain ⟨rfl, rfl, -⟩ := hn.of_comma hnz
        rw [huz, hz, ← List.append_assoc] at hu
        refine .inl ⟨['"', ']'], .inr rfl, ?_⟩
        obtain ⟨before, rfl⟩ := hu
        exact ⟨before, [], by simp⟩

/-- A word that stays inside is found in the text of one of the values, together with the mark it is
bound to. -/
theorem exists_single (hw : StaysInside w) (hm : Opens opens m) (hn : Closes closes n)
    {values : List String} (hne : values ≠ [])
    (h : m ++ w ++ n <:+: (storedList values).toList) :
    ∃ v ∈ values, ∃ m' n', Opens opens m' ∧ Closes closes n' ∧
      m' ++ w ++ n' <:+: (storedList [v]).toList := by
  induction values generalizing m with
  | nil => exact absurd rfl hne
  | cons v values ih =>
    cases values with
    | nil => exact ⟨v, List.mem_singleton_self v, m, n, hm, hn, h⟩
    | cons second rest =>
      rw [toList_storedList, listed_cons_cons] at h
      have hlast : ('[' :: '"' :: v.toList ++ ['"']).getLast? = some '"' := List.getLast?_concat
      have hhead : (listed (second :: rest) ++ [']']).head? = some '"' := by
        rw [List.head?_append, head?_listed_cons]
        rfl
      rcases hw.infix_of_separated hlast hhead hm hn (by simpa using h) with
        ⟨n', hn', hfirst⟩ | ⟨m', hm', hrest⟩
      · refine ⟨v, List.mem_cons_self, m, n', hm, hn', ?_⟩
        rw [toList_storedList]
        simpa [listed] using hfirst
      · rw [← List.cons_append, ← toList_storedList] at hrest
        obtain ⟨v', hv', hfound⟩ := ih hm' (List.cons_ne_nil _ _) hrest
        exact ⟨v', List.mem_cons_of_mem v hv', hfound⟩

end StaysInside

end SearchFilter
