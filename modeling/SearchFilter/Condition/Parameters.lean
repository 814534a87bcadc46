/-!
# Named parameters

The values of a condition are not part of its text: each is bound to a name, and the text refers
to it by that name. A new name is a column's name followed by the first number of a counter that
makes it new.

Main statements: a name that `Bindings.bind` gives out has the value (`get?_bind_self`), and every
other name keeps its own (`get?_bind_of_ne`).
-/

namespace SearchFilter

/-! ## Parameters -/

/-- Values by name, in the order in which they were bound. -/
structure Parameters where
  entries : List (String × String)
  nodup : (entries.map (·.1)).Nodup

namespace Parameters

def empty : Parameters := ⟨[], by simp⟩

def names (p : Parameters) : List String := p.entries.map (·.1)

/-- The value bound to a name. -/
def get? (p : Parameters) (name : String) : Option String :=
  (p.entries.find? (·.1 == name)).map (·.2)

/-- Binds a value to a name, in place of what the name was bound to. -/
def set (p : Parameters) (name value : String) : Parameters where
  entries := p.entries.filter (·.1 ≠ name) ++ [(name, value)]
  nodup := by
    have h : ((p.entries.filter (·.1 ≠ name)).map (·.1)).Nodup :=
      p.nodup.sublist (List.filter_sublist.map _)
    rw [List.map_append, List.nodup_append]
    refine ⟨h, by simp, fun a ha b hb => ?_⟩
    simp only [List.map_cons, List.map_nil, List.mem_singleton] at hb
    obtain ⟨e, he, rfl⟩ := List.mem_map.1 ha
    subst hb
    simpa using (List.mem_filter.1 he).2

/-- The last value bound to each name. -/
def ofList (entries : List (String × String)) : Parameters :=
  entries.foldl (fun p e => p.set e.1 e.2) empty

/-- The entries in the order of their names. -/
def sorted (p : Parameters) : List (String × String) :=
  p.entries.mergeSort fun a b => decide (a.1 ≤ b.1)

theorem get?_set_self (p : Parameters) (name value : String) :
    (p.set name value).get? name = some value := by
  have h : (p.entries.filter (·.1 ≠ name)).find? (·.1 == name) = none := by
    simp [List.find?_eq_none]
  rw [get?, set, List.find?_append, h]
  simp

theorem get?_set_of_ne (p : Parameters) {name other : String} (value : String)
    (h : other ≠ name) : (p.set name value).get? other = p.get? other := by
  have hne : (name == other) = false := by simpa using Ne.symm h
  simp only [get?, set, List.find?_append, List.find?_filter, List.find?_cons, hne,
    List.find?_nil, Option.or_none]
  congr 2
  funext e
  by_cases he : e.1 = other <;> simp [he, h]

end Parameters

/-! ## Fresh names -/

/-- A base followed by a number. -/
def numbered (base : String) (n : Nat) : String := base ++ toString n

theorem numbered_inj {base : String} {m n : Nat} (h : numbered base m = numbered base n) :
    m = n := by
  have h : base ++ m.repr = base ++ n.repr := h
  have h := congrArg String.toList h
  simp only [String.toList_append, List.append_cancel_left_eq, Nat.repr_eq_ofList_toDigits,
    String.toList_ofList] at h
  rw [← Nat.ofDigitChars_ten_toDigits (n := m), h, Nat.ofDigitChars_ten_toDigits]

/-- The first number from `n` on whose name is not taken. A taken name that has been passed cannot
be met again, so it is left out of what follows. -/
def freeNumber (base : String) (taken : List String) (n : Nat) : Nat :=
  if h : numbered base n ∈ taken then
    freeNumber base (taken.erase (numbered base n)) (n + 1)
  else n
termination_by taken.length
decreasing_by
  have := List.length_erase_of_mem h
  have := List.length_pos_of_mem h
  omega

/-! ## Binding values -/

/-- The values bound so far, and the number to try next. The counter has no last value; it starts at
zero, and to get past a machine word takes as many values. -/
structure Bindings where
  counter : Nat
  parameters : Parameters

namespace Bindings

/-- Nothing is bound yet. -/
def start : Bindings := ⟨0, .empty⟩

/-- The name of a column without its dots. -/
def baseName (column : String) : String := String.ofList (column.toList.filter (· ≠ '.'))

/-- The number of the next value of a column. -/
def freshNumber (b : Bindings) (column : String) : Nat :=
  freeNumber (baseName column) b.parameters.names b.counter

/-- The name of the next value of a column. -/
def freshName (b : Bindings) (column : String) : String :=
  numbered (baseName column) (b.freshNumber column)

/-- Binds a value of a column to a fresh name. -/
def bind (b : Bindings) (column value : String) : Bindings where
  counter := b.freshNumber column + 1
  parameters := b.parameters.set (b.freshName column) value

theorem get?_bind_self (b : Bindings) (column value : String) :
    (b.bind column value).parameters.get? (b.freshName column) = some value :=
  b.parameters.get?_set_self _ _

theorem get?_bind_of_ne (b : Bindings) {column name : String} (value : String)
    (h : name ≠ b.freshName column) :
    (b.bind column value).parameters.get? name = b.parameters.get? name :=
  b.parameters.get?_set_of_ne value h

end Bindings

end SearchFilter
