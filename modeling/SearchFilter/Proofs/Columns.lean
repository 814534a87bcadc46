import Mathlib.Data.List.Basic
import SearchFilter.Column
import SearchFilter.Condition.Parameters
import SearchFilter.Proofs.Condition.Scan
import SearchFilter.Proofs.Sql.Token

/-!
# Names of columns

The columns of both dialects have names that are words and no words of SQL. Some of them end in
digits, as `sha1` does; still no name is another one followed by digits, so that a name with a
number after it tells the column and the number.

Main statement: `numbered_inj_of_mem`.
-/

namespace SearchFilter

namespace Column

/-- The names that the columns behind a field go by. -/
def names (c : Column) : List String := c.matched :: c.companion?.toList

theorem matched_mem_names (c : Column) : c.matched ∈ c.names := List.mem_cons_self

theorem mem_names_of_companion {c : Column} {name : String} (h : c.companion? = some name) :
    name ∈ c.names := by
  unfold names
  rw [h]
  exact List.mem_cons_of_mem _ List.mem_cons_self

theorem compared_mem_names (c : Column) : c.compared ∈ c.names := by
  unfold compared
  cases h : c.companion? with
  | none => exact c.matched_mem_names
  | some name => exact mem_names_of_companion h

theorem mem_names_iff {c : Column} {name : String} :
    name ∈ c.names ↔ name = c.matched ∨ name = c.compared := by
  unfold names compared
  cases c.companion? with
  | none => simp
  | some companion => simp

end Column

/-- The names of all columns. -/
def columnNames : List String :=
  Dialect.all.flatMap fun d => (Field.all.filterMap d.column?).flatMap Column.names

theorem Dialect.mem_all (d : Dialect) : d ∈ Dialect.all := by cases d <;> decide

theorem mem_columnNames {d : Dialect} {f : Field} {c : Column} (hc : d.column? f = some c)
    {name : String} (h : name ∈ c.names) : name ∈ columnNames :=
  List.mem_flatMap.2 ⟨d, d.mem_all,
    List.mem_flatMap.2 ⟨c, List.mem_filterMap.2 ⟨f, f.mem_all, hc⟩, h⟩⟩

/-- Whether a text is another one with digits after it. Characters are compared by their code
points, which is quick to compute. -/
def isNumberedFrom : List Char → List Char → Bool
  | [], ds => ds.all Char.isDigit
  | _ :: _, [] => false
  | a :: as, b :: bs => a.toNat.beq b.toNat && isNumberedFrom as bs

theorem isNumberedFrom_append (as : List Char) {ds : List Char} (h : ∀ c ∈ ds, c.isDigit = true) :
    isNumberedFrom as (as ++ ds) = true := by
  induction as with
  | nil => exact List.all_eq_true.2 h
  | cons a as ih => exact Bool.and_eq_true_iff.2 ⟨Nat.beq_refl _, ih⟩

/-- Everything that the names are looked through for, so that each is spelt out but once. -/
theorem spelling_of_mem_columnNames : ∀ name ∈ columnNames,
    isIdentifier name.toList = true ∧
      (∀ word ∈ Sql.Token.sqlWords, name.toList.map Char.toUpper ≠ word.toList.map Char.toUpper) ∧
      ∀ name' ∈ columnNames, isNumberedFrom name.toList name'.toList = true → name = name' := by
  decide +kernel

/-- A word of letters, digits and underscores that is none of SQL. -/
structure IsColumnName (name : String) : Prop where
  ne : name.toList ≠ []
  rest : ∀ c ∈ name.toList, isIdentRest c = true
  own : ∀ word ∈ Sql.Token.sqlWords, name.toList.map Char.toUpper ≠ word.toList.map Char.toUpper

theorem isColumnName_of_mem {name : String} (h : name ∈ columnNames) : IsColumnName name := by
  obtain ⟨hname, hown, -⟩ := spelling_of_mem_columnNames name h
  refine ⟨?_, isIdentRest_of_mem hname, hown⟩
  intro hnil
  rw [hnil] at hname
  exact absurd hname (by decide)

/-! ## Names with numbers -/

theorem toList_numbered (base : String) (n : ℕ) :
    (numbered base n).toList = base.toList ++ Nat.toDigits 10 n := by
  unfold numbered
  rw [String.toList_append, Nat.toString_eq_repr, Nat.toList_repr]

theorem isDigit_of_mem_toDigits {n : ℕ} {c : Char} (h : c ∈ Nat.toDigits 10 n) :
    c.isDigit = true :=
  Nat.isDigit_of_mem_toDigits (by decide) (by decide) h

/-- No name is another one with digits after it. -/
theorem eq_of_append_digits {a b : String} (ha : a ∈ columnNames) (hb : b ∈ columnNames)
    {ds : List Char} (h : b.toList = a.toList ++ ds) (hds : ∀ c ∈ ds, c.isDigit = true) :
    a = b := by
  refine (spelling_of_mem_columnNames a ha).2.2 b hb ?_
  rw [h]
  exact isNumberedFrom_append a.toList hds

/-- What follows the digits tells the name before them. -/
theorem eq_of_append_digits_eq {a b : String} (ha : a ∈ columnNames) (hb : b ∈ columnNames)
    {ds es : List Char} (h : a.toList ++ ds = b.toList ++ es) (hds : ∀ c ∈ ds, c.isDigit = true)
    (hes : ∀ c ∈ es, c.isDigit = true) : a = b := by
  rw [List.append_eq_append_iff] at h
  rcases h with ⟨cs, hb', hds'⟩ | ⟨cs, ha', hes'⟩
  · exact eq_of_append_digits ha hb hb' fun c hc => hds c (hds' ▸ List.mem_append_left _ hc)
  · exact (eq_of_append_digits hb ha ha' fun c hc =>
      hes c (hes' ▸ List.mem_append_left _ hc)).symm

theorem numbered_inj_of_mem {a b : String} (ha : a ∈ columnNames) (hb : b ∈ columnNames)
    {m n : ℕ} (h : numbered a m = numbered b n) : a = b ∧ m = n := by
  have hlist := congrArg String.toList h
  rw [toList_numbered, toList_numbered] at hlist
  obtain rfl := eq_of_append_digits_eq ha hb hlist (fun _ => isDigit_of_mem_toDigits)
    fun _ => isDigit_of_mem_toDigits
  exact ⟨rfl, numbered_inj h⟩

/-! ## Columns of placeholders -/

/-- The column whose name, with a number after it, is the name of a placeholder. -/
def Mark.column? (m : Mark) : Option String :=
  columnNames.find? fun name =>
    name.toList.isPrefixOf m.name && (m.name.drop name.toList.length).all Char.isDigit

theorem Mark.column?_numbered {column : String} (hc : column ∈ columnNames) (ns : List Char)
    (k : ℕ) : column? ⟨ns, (numbered column k).toList⟩ = some column := by
  have hdigits : ∀ c ∈ Nat.toDigits 10 k, c.isDigit = true := fun _ => isDigit_of_mem_toDigits
  unfold column?
  cases h : columnNames.find? _ with
  | none =>
    have hnone := List.find?_eq_none.1 h column hc
    rw [toList_numbered, List.drop_left, Bool.and_eq_true, List.isPrefixOf_iff_prefix,
      List.all_eq_true] at hnone
    exact absurd ⟨⟨_, rfl⟩, hdigits⟩ hnone
  | some name =>
    have hname := List.find?_some h
    rw [toList_numbered, Bool.and_eq_true, List.isPrefixOf_iff_prefix, List.all_eq_true] at hname
    obtain ⟨⟨ds, hds⟩, hrest⟩ := hname
    rw [← hds, List.drop_left] at hrest
    rw [eq_of_append_digits_eq (List.mem_of_find?_eq_some h) hc hds hrest hdigits]

end SearchFilter
