import SearchFilter.Proofs.Condition.Tidy

/-!
# Fresh names

The names of a base are tried one number after the other. What has been taken before does not
matter, nor does the number to begin with: no name is tried twice, so that each turn is paid for by
a name that is taken, and a name is left after as many turns as there are names. A value that is
bound to it leaves all others as they are.

A counter of a machine word goes up by one with each name that is tried, up to its last value. It
gets there only from nearby, or by as many values.

Main statements: `tries_freeNumber`, `Bindings.exists_fresh_of_room` and
`Condition.ofPieces?_eq_of_room`.
-/

namespace SearchFilter

/-! ## Turns -/

/-- From a number on, the names of a base are tried until one is not taken: how many are passed, and
the number of the one that is left. -/
inductive Tries (base : String) (taken : List String) : ℕ → ℕ → ℕ → Prop
  | free {n} (h : numbered base n ∉ taken) : Tries base taken n 0 n
  | next {n turns m} (h : numbered base n ∈ taken) (rest : Tries base taken (n + 1) turns m) :
      Tries base taken n (turns + 1) m

namespace Tries

variable {base : String} {taken taken' : List String} {n turns m : ℕ}

theorem number_eq (h : Tries base taken n turns m) : m = n + turns := by
  induction h with
  | free => rfl
  | next _ _ ih => omega

theorem not_mem (h : Tries base taken n turns m) : numbered base m ∉ taken := by
  induction h with
  | free h => exact h
  | next _ _ ih => exact ih

/-- Only the names from a number on count. -/
theorem congr (hsame : ∀ i, n ≤ i → (numbered base i ∈ taken ↔ numbered base i ∈ taken'))
    (h : Tries base taken n turns m) : Tries base taken' n turns m := by
  induction h with
  | free h => exact .free fun hmem => h ((hsame _ (Nat.le_refl _)).2 hmem)
  | next h _ ih =>
    exact .next ((hsame _ (Nat.le_refl _)).1 h) (ih fun i hi => hsame i (Nat.le_of_succ_le hi))

/-- A name that has been passed is not met again. -/
theorem mem_erase_iff {i : ℕ} (hi : n + 1 ≤ i) :
    numbered base i ∈ taken.erase (numbered base n) ↔ numbered base i ∈ taken :=
  List.mem_erase_of_ne fun heq => by
    have := numbered_inj heq
    omega

/-- Each turn passes another name that is taken. -/
theorem turns_le (h : Tries base taken n turns m) : turns ≤ taken.length := by
  induction turns generalizing taken n with
  | zero => exact Nat.zero_le _
  | succ turns ih =>
    cases h with
    | next hmem rest =>
      have hrest := ih (rest.congr fun i hi => (mem_erase_iff hi).symm)
      rw [List.length_erase_of_mem hmem] at hrest
      have := List.length_pos_of_mem hmem
      omega

end Tries

/-- The number that is found is the one that trying comes to. -/
theorem tries_freeNumber (base : String) (taken : List String) (n : ℕ) :
    ∃ turns, Tries base taken n turns (freeNumber base taken n) := by
  fun_induction freeNumber with
  | case1 taken n h ih =>
    obtain ⟨turns, hrest⟩ := ih
    exact ⟨turns + 1, .next h (hrest.congr fun i hi => Tries.mem_erase_iff hi)⟩
  | case2 taken n h => exact ⟨0, .free h⟩

/-! ## A counter of a machine word -/

/-- The number of the values of a counter. -/
def counterSize : ℕ := UInt64.size

/-- Tries the names of a base one number after the other. The counter goes up with each of them, and
is given together with the number of the first one that is not taken. There is none if the counter
has to go up from its last value: a program stops there, or begins again from zero. -/
def tryNames? (base : String) (taken : List String) (n : ℕ) : Option (ℕ × ℕ) :=
  if n + 1 < counterSize then
    if numbered base n ∈ taken then tryNames? base taken (n + 1) else some (n, n + 1)
  else none
termination_by counterSize - n

theorem Tries.tryNames?_eq {base : String} {taken : List String} {n turns m : ℕ}
    (h : Tries base taken n turns m) :
    tryNames? base taken n = if m + 1 < counterSize then some (m, m + 1) else none := by
  induction h with
  | free h => rw [tryNames?, if_neg h]
  | @next n turns m h rest ih =>
    rw [tryNames?, if_pos h, ih]
    have hm := rest.number_eq
    by_cases hroom : m + 1 < counterSize
    · rw [if_pos (by omega)]
    · rw [if_neg hroom, ite_self]

/-! ## Binding a value -/

theorem Parameters.entries_set_of_not_mem {p : Parameters} {name : String} (h : name ∉ p.names)
    (value : String) : (p.set name value).entries = p.entries ++ [(name, value)] := by
  have hkeep : p.entries.filter (·.1 ≠ name) = p.entries :=
    List.filter_eq_self.2 fun e he => decide_eq_true fun heq => h (heq ▸ List.mem_map_of_mem he)
  exact congrArg (· ++ [(name, value)]) hkeep

theorem placeholder_inj {ns name name' : String} :
    placeholder ns name = placeholder ns name' ↔ name = name' := by
  refine ⟨fun h => ?_, fun h => h ▸ rfl⟩
  have hlist := congrArg String.toList h
  simpa [placeholder, String.toList_inj] using hlist

/-- A placeholder is read as the one name that it is written for. -/
theorem scan_placeholder {ns base : String} (hns : isIdentifier ns.toList = true)
    (hbase : '}' ∉ base.toList) (k : ℕ) :
    scan (placeholder ns (numbered base k)).toList =
      ⟨[], [(⟨ns.toList, (numbered base k).toList⟩, [])]⟩ := by
  have hproper : (Slot.mark ns (⟨base, ""⟩, k)).Proper := by
    refine ⟨hns, ?_, fun hmem => ?_⟩
    · rw [Slot.mark, toList_numbered]
      exact List.append_ne_nil_of_right_ne_nil _ Nat.toDigits_ne_nil
    · rw [Slot.mark, toList_numbered, List.mem_append] at hmem
      exact hmem.elim hbase fun h => absurd (isDigit_of_mem_toDigits h) (by decide)
  have hscan := scan_render hproper []
  rwa [Slot.render_mark, List.append_nil, scan] at hscan

namespace Bindings

theorem not_mem_baseName {c : Char} {column : String} (h : c ∉ column.toList) :
    c ∉ (baseName column).toList := by
  rw [baseName, String.toList_ofList]
  exact fun hmem => h (List.mem_of_mem_filter hmem)

variable (b : Bindings) (ns column value : String)

/-- Binds a value of a column to the first of its names that is not taken, and gives the placeholder
of that name, if the counter does not have to go past its last value. -/
def place? : Option (String × Bindings) :=
  (tryNames? (baseName column) b.parameters.names b.counter).map fun (n, next) =>
    (placeholder ns (numbered (baseName column) n),
      ⟨next, b.parameters.set (numbered (baseName column) n) value⟩)

theorem counter_bind : (b.bind column value).counter = b.freshNumber column + 1 := rfl

/-- To bind with a counter of a machine word is to bind, as long as it can go up. -/
theorem place?_eq :
    b.place? ns column value =
      if (b.bind column value).counter < counterSize then
        some (placeholder ns (b.freshName column), b.bind column value)
      else none := by
  obtain ⟨turns, htries⟩ := tries_freeNumber (baseName column) b.parameters.names b.counter
  rw [place?, htries.tryNames?_eq, counter_bind, freshNumber]
  split <;> rfl

theorem counter_lt_bind : b.counter < (b.bind column value).counter := by
  obtain ⟨turns, htries⟩ := tries_freeNumber (baseName column) b.parameters.names b.counter
  rw [counter_bind, freshNumber, htries.number_eq]
  omega

/-- In any state whose counter has room for as many turns as there are names, a value is bound after
finitely many turns, of which each passes a name that is taken. The name was free, it is put after
all the others and has the value, and they have what they had. The counter has gone up. Of all names
it is the one that the placeholder is written for, and in a namespace that is an identifier it is
the one that is read there. -/
theorem exists_fresh_of_room (h : b.counter + b.parameters.names.length + 1 < counterSize) :
    ∃ name turns b', b.place? ns column value = some (placeholder ns name, b') ∧
      b.fill ns [.slot column value] = ([placeholder ns name], b') ∧
      (∃ k, Tries (baseName column) b.parameters.names b.counter turns k ∧
        name = numbered (baseName column) k) ∧
      turns ≤ b.parameters.names.length ∧
      name ∉ b.parameters.names ∧
      b'.parameters.entries = b.parameters.entries ++ [(name, value)] ∧
      b'.parameters.get? name = some value ∧
      (∀ other, other ≠ name → b'.parameters.get? other = b.parameters.get? other) ∧
      b'.counter = b.counter + turns + 1 ∧ b'.counter < counterSize ∧
      (∀ other, placeholder ns other = placeholder ns name ↔ other = name) ∧
      (isIdentifier ns.toList = true → '}' ∉ column.toList →
        (Condition.mk (placeholder ns name) b'.parameters ns).placeholders = [name] ∧
        (Condition.mk (placeholder ns name) b'.parameters ns).inlined =
          String.ofList (Condition.literal value)) := by
  obtain ⟨turns, htries⟩ := tries_freeNumber (baseName column) b.parameters.names b.counter
  have hvalue := b.get?_bind_self column value
  have hcounter : (b.bind column value).counter = b.counter + turns + 1 := by
    rw [counter_bind, freshNumber, htries.number_eq]
  have hroom : (b.bind column value).counter < counterSize := by
    have := htries.turns_le
    omega
  refine ⟨b.freshName column, turns, b.bind column value, by rw [place?_eq, if_pos hroom], rfl,
    ⟨_, htries, rfl⟩, htries.turns_le, htries.not_mem,
    Parameters.entries_set_of_not_mem htries.not_mem value, hvalue,
    fun other hother => b.get?_bind_of_ne value hother, hcounter, hroom,
    fun other => placeholder_inj, fun hns hcolumn => ?_⟩
  have hscan : scan (placeholder ns (b.freshName column)).toList =
      ⟨[], [(⟨ns.toList, (b.freshName column).toList⟩, [])]⟩ :=
    scan_placeholder hns (not_mem_baseName hcolumn) (b.freshNumber column)
  constructor
  · simp only [Condition.placeholders, hscan, List.map_cons, List.map_nil, String.ofList_toList]
  · simp [Condition.inlined, hscan, Scanned.join, hvalue]

/-- A name that is taken is passed. -/
theorem exists_fresh_of_room_sha10 :
    ∃ b', (Bindings.mk 0 (.ofList [("sha10", "x")])).place? "p" "sha1" "y" =
        some ("#\x7bp.sha11\x7d", b') ∧
      b'.parameters.entries = [("sha10", "x"), ("sha11", "y")] ∧ b'.counter = 2 := by
  obtain ⟨name, turns, b', hplace, -, ⟨k, htries, rfl⟩, -, -, hentries, -, -, hcounter, -⟩ :=
    exists_fresh_of_room (.mk 0 (.ofList [("sha10", "x")])) "p" "sha1" "y" (by decide +kernel)
  have hone : turns = 1 ∧ k = 1 := by
    cases htries with
    | free hfree => exact absurd (by decide +kernel) hfree
    | next _ rest =>
      cases rest with
      | free => exact ⟨rfl, rfl⟩
      | next htaken _ => exact absurd htaken (by decide +kernel)
  obtain ⟨rfl, rfl⟩ := hone
  exact ⟨b', hplace, hentries, hcounter⟩

/-- From its last value the counter cannot go up. In a namespace with a dot, another name is read in
the placeholder than the one that the value is bound to. -/
theorem place?_of_last_and_dotted :
    (Bindings.mk 18446744073709551615 .empty).place? "p" "sha1" "a" = none ∧
    ∃ text b', Bindings.start.place? "a.b" "sha1" "a" = some (text, b') ∧
      b'.parameters.entries = [("sha10", "a")] ∧
      (Condition.mk text b'.parameters "a.b").placeholders = ["b.sha10"] := by
  constructor
  · rw [place?, tryNames?, if_neg (by decide +kernel)]
    rfl
  · rw [place?_eq, if_pos (by decide +kernel)]
    exact ⟨_, _, rfl, by decide +kernel, by decide +kernel⟩

/-- A name that is taken is passed, whatever column it belongs to. -/
example :
    ((Bindings.mk 0 (.ofList [("a1b0", "x"), ("a0", "y")])).fill "p" [.slot "a.1b" "z"]).1 =
      ["#\x7bp.a1b1\x7d"] := by
  decide +kernel

/-! ## Runs -/

/-- Fills the slots of pieces with a counter of a machine word. -/
def fill? (ns : String) (b : Bindings) : List Piece → Option (List String × Bindings)
  | [] => some ([], b)
  | .text s :: rest => do
    let (texts, last) ← fill? ns b rest
    return (s :: texts, last)
  | .slot column value :: rest => do
    let (text, b') ← b.place? ns column value
    let (texts, last) ← fill? ns b' rest
    return (text :: texts, last)

theorem counter_le_fill (ns : String) (b : Bindings) (ps : List Piece) :
    b.counter ≤ (b.fill ns ps).2.counter := by
  induction ps generalizing b with
  | nil => exact Nat.le_refl _
  | cons p ps ih =>
    cases p with
    | text s => exact ih b
    | slot column value => exact (b.counter_lt_bind column value).le.trans (ih _)

/-- Slots are filled in the same way, as long as the counter can go up in the end. -/
theorem fill?_eq {ns : String} {b : Bindings} {ps : List Piece}
    (h : (b.fill ns ps).2.counter < counterSize) : b.fill? ns ps = some (b.fill ns ps) := by
  induction ps generalizing b with
  | nil => rfl
  | cons p ps ih =>
    cases p with
    | text s =>
      have hrest : b.fill? ns ps = some (b.fill ns ps) := ih h
      rw [fill?, hrest]
      rfl
    | slot column value =>
      have hlast : ((b.bind column value).fill ns ps).2.counter < counterSize := h
      have hroom := (counter_le_fill ns (b.bind column value) ps).trans_lt hlast
      rw [fill?, place?_eq, if_pos hroom, Option.bind_eq_bind, Option.bind_some]
      dsimp only
      rw [ih hlast]
      rfl

end Bindings

namespace Condition

/-- The condition that pieces make up with a counter of a machine word. -/
def ofPieces? (ns : String) (pieces : List Piece) : Option Condition :=
  (Bindings.start.fill? ns pieces).map fun (texts, bindings) =>
    ⟨String.join texts, bindings.parameters, ns⟩

/-- The counter of a machine word is enough for as many values as it has. -/
theorem ofPieces?_eq_of_room {ns : String} {ps : List Piece}
    (hcolumns : ∀ s ∈ Piece.slots ps, s.column ∈ columnNames)
    (h : (Piece.slots ps).length < counterSize) : ofPieces? ns ps = some (ofPieces ns ps) := by
  have hholds := (Bindings.holds_start.fill ns hcolumns).2
  rw [List.nil_append] at hholds
  rw [ofPieces?, Bindings.fill?_eq (hholds.counter.trans_lt h)]
  rfl

end Condition

end SearchFilter
