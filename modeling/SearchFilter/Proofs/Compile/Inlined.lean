import SearchFilter.Proofs.Compile.Slots

/-!
# Compiled expressions with their values written in

For people to read, a condition is written with its values in place of the placeholders. Read with
literals in quotes, it is the text of the condition with one literal for each placeholder, and the
literal says what is bound to the placeholder: quotes in a value do not end its literal, and what
looks like a placeholder in a value is part of the value.

Main statement: `Expression.literals?_inlined_of_compile`.
-/

namespace SearchFilter

open Piece Sql

namespace Expression

variable {d : Dialect} {ns : String} {e : Expression} {c : Condition}

theorem spaced_of_compile (hns : isIdentifier ns.toList = true) (h : e.compile d ns = .ok c) :
    (scan c.sqlText.toList).Spaced := by
  obtain ⟨-, rfl⟩ := compile_eq_ok_iff.1 h
  exact Condition.spaced_ofPieces hns (e.spaced_pieces d) (e.tidy_pieces d)
    (e.columns_of_mem_slots d)

/-- Every placeholder has a value. -/
theorem exists_get?_of_mem_marks (hns : isIdentifier ns.toList = true) (h : e.compile d ns = .ok c)
    {m : Mark} (hm : m ∈ c.marks) :
    ∃ value, c.parameters.get? (String.ofList m.name) = some value := by
  have hplaceholder : String.ofList m.name ∈ c.placeholders := by
    rw [Condition.marks, List.mem_map] at hm
    obtain ⟨p, hp, rfl⟩ := hm
    exact List.mem_map_of_mem hp
  rw [placeholders_eq_names hns h, ← parameters_names_eq h] at hplaceholder
  obtain ⟨⟨name, value⟩, hentry, hname⟩ := List.mem_map.1 hplaceholder
  exact ⟨value, hname ▸ Parameters.get?_of_mem hentry⟩

/-- The text of a compiled expression with its values written in has one literal for each
placeholder, in its place, and the content of the literal is the value that is bound to the
placeholder. -/
theorem literals?_inlined_of_compile (hns : isIdentifier ns.toList = true)
    (h : e.compile d ns = .ok c) :
    ∃ value : Mark → String,
      (∀ m ∈ c.marks, c.parameters.get? (String.ofList m.name) = some (value m)) ∧
      literals? c.inlined.toList =
        some ((scan c.sqlText.toList).symbols fun m => (value m).toList) := by
  choose! value hvalue using fun m => exists_get?_of_mem_marks (m := m) hns h
  refine ⟨value, hvalue, ?_⟩
  rw [Condition.toList_inlined hvalue]
  exact (spaced_of_compile hns h).literals?_join value

/-- Neither the quotes nor the placeholder in a value are taken for ones of the text. -/
theorem literals?_inlined_of_compile_quote :
    ∃ c, compile .h2 "p" (.clause .or (compare .sha1 .eq (.exact "it's #\x7bp.md51\x7d"))
        [compare .md5 .eq (.exact "''")]) = .ok c ∧
      literals? c.inlined.toList =
        some ("(sha1 = ".toList.map .char ++ .literal "it's #\x7bp.md51\x7d".toList ::
          " OR md5 = ".toList.map .char ++ [.literal "''".toList, .char ')']) := by
  refine Exists.imp (fun c hok => ⟨hok, ?_⟩) ⟨_, compile_eq_ok_iff.2 ⟨by decide +kernel, rfl⟩⟩
  obtain ⟨value, hvalue, hread⟩ := literals?_inlined_of_compile (by decide) hok
  obtain ⟨hsql, hsha1, hmd5⟩ : c.sqlText = "(sha1 = #\x7bp.sha10\x7d OR md5 = #\x7bp.md51\x7d)" ∧
      c.parameters.get? (String.ofList "sha10".toList) = some "it's #\x7bp.md51\x7d" ∧
      c.parameters.get? (String.ofList "md51".toList) = some "''" := by
    rw [(compile_eq_ok_iff.1 hok).2]
    decide +kernel
  obtain ⟨hlead, hmarks⟩ : (scan c.sqlText.toList).lead = "(sha1 = ".toList ∧
      (scan c.sqlText.toList).marks =
        [(⟨"p".toList, "sha10".toList⟩, " OR md5 = ".toList),
          (⟨"p".toList, "md51".toList⟩, ")".toList)] := by
    rw [hsql]
    decide +kernel
  rw [Condition.marks, hmarks, List.map_cons, List.map_singleton, List.forall_mem_cons,
    List.forall_mem_singleton, hsha1, hmd5, Option.some.injEq, Option.some.injEq] at hvalue
  rw [hread, Scanned.symbols, hlead, hmarks]
  simp only [List.flatMap_cons, List.flatMap_nil, ← hvalue.1, ← hvalue.2]
  rfl

end Expression

end SearchFilter
