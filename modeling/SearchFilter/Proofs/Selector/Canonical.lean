import SearchFilter.Proofs.Selector.Derivation

/-!
# Canonical selectors

Not every tree is what some text spells. Without a group, an operand of a connective cannot be what
the grammar would read the other way, and a backslash stays in a value only before a character that
it does not escape. The other trees, which are the canonical ones, can be written out.

Main statement: `Selector.canonical_iff_exists_read`.
-/

namespace SearchFilter.Selector

/-! ## Canonical trees -/

/-- Whether a selector is joined by a connective, with no group around it. -/
def IsJoined (op : Connective) (x : Selector) : Prop := ∃ left right, x = .logical op left right

/-- The texts that can stand between quotes: from the left, every backslash comes before a character
that it does not escape, and that character counts as part of it. -/
inductive Expressible : List Char → Prop
  | nil : Expressible []
  | plain {c : Char} {value : List Char} (hc : c ≠ '\\') (h : Expressible value) :
      Expressible (c :: value)
  | kept {c : Char} {value : List Char} (hc : c ∉ ['n', 't', 'r', '"', '\''])
      (h : Expressible value) : Expressible ('\\' :: c :: value)

/-- A selector that some text spells. -/
def Canonical : Selector → Prop
  | comparison property _ value => IsPropertyName property.toList ∧ Expressible value.toList
  | logical .or left right => left.Canonical ∧ right.Canonical ∧ ¬ right.IsJoined .or
  | logical .and left right =>
    left.Canonical ∧ right.Canonical ∧ ¬ left.IsJoined .or ∧ ∀ op, ¬ right.IsJoined op
  | group inner => inner.Canonical

/-! ## Writing -/

/-- The two kinds of quotes. -/
inductive QuoteMark where
  | double
  | single

def QuoteMark.char : QuoteMark → Char
  | double => '"'
  | single => '\''

/-- A value with a backslash before each quote. -/
def escapeQuotes (value : List Char) : List Char :=
  value.flatMap fun c => if c ∈ ['"', '\''] then ['\\', c] else [c]

section
variable (mark : String → QuoteMark)

/-- The characters of a selector that is written out. -/
def writeChars : Selector → List Char
  | comparison property op value => property.toList ++ [' '] ++ op.token.toList ++ [' '] ++
      (mark value).char :: escapeQuotes value.toList ++ [(mark value).char]
  | logical op left right => writeChars left ++ [' '] ++ op.sign ++ ([' '] ++ writeChars right)
  | group inner => '(' :: writeChars inner ++ [')']

/-- A selector written out, with each value in quotes of the kind that `mark` says. -/
def write (x : Selector) : String := String.ofList (x.writeChars mark)

end

/-! ## Texts in quotes -/

variable {φ : Phrase} {s w source value : List Char} {x : Selector} {op : Connective} {quote : Char}

theorem Quotes.expressible (h : Quotes quote source value) : Expressible value := by
  induction h with
  | nil => exact .nil
  | plain _ hc _ ih => exact .plain hc ih
  | escape hc _ ih =>
    cases hc with
    | newline | tab | carriageReturn => exact .plain (by decide) ih
    | quote hc =>
      refine .plain ?_ ih
      rintro rfl
      exact absurd hc (by decide)
    | other hc => exact .kept hc ih

theorem Expressible.quotes (hquote : quote ∈ ['"', '\'']) (h : Expressible value) :
    Quotes quote (escapeQuotes value) value := by
  induction h with
  | nil => exact .nil
  | @plain c value hc h ih =>
    rw [escapeQuotes, List.flatMap_cons]
    split
    · next hmem => exact .escape (.quote hmem) ih
    · next hmem =>
      refine .plain ?_ hc ih
      rintro rfl
      exact hmem hquote
  | @kept c value hc h ih =>
    have hmem : c ∉ ['"', '\''] := fun hmem => hc (by simp at hmem ⊢; tauto)
    rw [escapeQuotes, List.flatMap_cons, List.flatMap_cons, if_neg (by decide), if_neg hmem]
    exact .escape (.other hc) ih

/-! ## Trees of phrases -/

/-- The trees that a phrase can have at the top. -/
def Phrase.Admits : Phrase → Selector → Prop
  | chain .or, _ => True
  | chain .and, x => ¬ x.IsJoined .or
  | primary, x => ∀ op, ¬ x.IsJoined op

theorem canonical_logical_iff {left right : Selector} :
    (logical op left right).Canonical ↔ left.Canonical ∧ right.Canonical ∧
      (Phrase.chain op).Admits left ∧ (Phrase.operand op).Admits right := by
  cases op <;> simp [Canonical, Phrase.operand, Phrase.Admits]

theorem Phrase.Admits.chain (h : (Phrase.operand op).Admits x) : (Phrase.chain op).Admits x := by
  cases op with
  | and => exact h .or
  | or => trivial

/-- What a text spells is canonical. -/
theorem Derives.canonical (h : Derives φ s x) : x.Canonical ∧ φ.Admits x := by
  induction h with
  | single _ ih => exact ⟨ih.1, ih.2.chain⟩
  | @join op s w k t x y _ _ _ _ ihl ihr =>
    refine ⟨canonical_logical_iff.2 ⟨ihl.1, ihr.1, ihl.2, ihr.2⟩, ?_⟩
    cases op with
    | and => nofun
    | or => trivial
  | group _ _ _ ih => exact ⟨ih.1, nofun⟩
  | comparison _ hname _ _ _ _ h =>
    refine ⟨⟨?_, ?_⟩, nofun⟩
    · rwa [String.toList_ofList]
    · rw [String.toList_ofList]
      exact h.expressible

theorem Derives.of_primary (h : Derives .primary s x) (φ : Phrase) : Derives φ s x := by
  cases φ with
  | primary => exact h
  | chain op =>
    cases op with
    | and => exact .single h
    | or => exact .single (.single h)

theorem Derives.of_chain {left right : Selector} (h : Derives (.chain op) s (logical op left right))
    (hφ : φ.Admits (logical op left right)) : Derives φ s (logical op left right) := by
  cases φ with
  | primary => exact absurd ⟨left, right, rfl⟩ (hφ op)
  | chain p =>
    cases p with
    | and =>
      cases op with
      | and => exact h
      | or => exact absurd ⟨left, right, rfl⟩ hφ
    | or =>
      cases op with
      | and => exact .single h
      | or => exact h

/-- A canonical selector is spelled by what is written for it. -/
theorem Canonical.derives (mark : String → QuoteMark) (hx : x.Canonical) (hφ : φ.Admits x)
    (hw : Spaces w) : Derives φ (w ++ x.writeChars mark) x := by
  have hspace : Spaces [' '] := List.forall_mem_singleton.2 (by decide)
  induction x generalizing φ w with
  | comparison property op value =>
    obtain ⟨hname, hvalue⟩ := hx
    have hquote : (mark value).char ∈ ['"', '\''] := by cases mark value <;> decide
    have hmaximal : ∀ c ∈ ([' '] ++ op.token.toList).head?, ¬ IsNameChar c := by
      intro c hc hname
      obtain rfl : ' ' = c := Option.some.inj hc
      exact absurd hname.isSpace_eq_false (by decide)
    have h := Derives.comparison hw hname hspace hmaximal hspace hquote (hvalue.quotes hquote)
    rw [String.ofList_toList, String.ofList_toList] at h
    refine Derives.of_primary ?_ φ
    simpa [writeChars] using h
  | logical op left right ihl ihr =>
    obtain ⟨hleft, hright, hl, hr⟩ := canonical_logical_iff.1 hx
    have h := Derives.join (ihl hleft hl hw) hspace (.sign _) (ihr hright hr hspace)
    refine Derives.of_chain ?_ hφ
    simpa [writeChars] using h
  | group inner ih =>
    have h := Derives.group hw (ih (φ := .chain .or) hx trivial .nil) .nil
    refine Derives.of_primary ?_ φ
    simpa [writeChars] using h

theorem canonical_of_read {text : String} (h : read text = .ok x) : x.Canonical := by
  rw [read_eq_ok_iff, readAll_eq_ok_iff_spelled] at h
  obtain ⟨s, w, -, hs, -⟩ := h
  exact hs.canonical.1

theorem Canonical.read_write (hx : x.Canonical) (mark : String → QuoteMark) :
    read (x.write mark) = .ok x := by
  rw [read_eq_ok_iff, readAll_eq_ok_iff_spelled, write, String.toList_ofList]
  refine ⟨x.writeChars mark, [], (List.append_nil _).symm, ?_, .nil⟩
  exact hx.derives mark (φ := .chain .or) trivial .nil

/-- The selectors that can be read are the canonical ones, and each of them is read from what is
written for it, whichever quotes are used. -/
theorem canonical_iff_exists_read (x : Selector) :
    (x.Canonical ↔ ∃ text, read text = .ok x) ∧
      ∀ mark, x.Canonical ↔ read (x.write mark) = .ok x := by
  constructor
  · constructor
    · intro hx
      exact ⟨_, hx.read_write fun _ => .double⟩
    · rintro ⟨text, h⟩
      exact canonical_of_read h
  · intro mark
    exact ⟨fun hx => hx.read_write mark, canonical_of_read⟩

end SearchFilter.Selector
