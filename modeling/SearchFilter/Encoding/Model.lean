import SearchFilter.Condition
import SearchFilter.Encoding.Decode
import SearchFilter.Expression
import SearchFilter.Settings

/-!
# JSON forms

A term names its kind; an expression is an object with a single member, which says whether it is a
predicate or a clause. Reading a term or an expression checks what its type asks for. Conditions and
settings are objects with a member for each field.
-/

namespace SearchFilter

/-! ## Names -/

def Field.toJson (f : Field) : Json := .string f.key

def Field.ofJson : Json → Decoded Field := Json.asNamed Field.ofKey?

def Operand.toJson (o : Operand) : Json := .string o.name

def Operand.ofJson : Json → Decoded Operand :=
  Json.asNamed fun name => Operand.all.find? (·.name == name)

def Connective.toJson (c : Connective) : Json := .string c.name

def Connective.ofJson : Json → Decoded Connective :=
  Json.asNamed fun name => Connective.all.find? (·.name == name)

def SortDirection.toJson (d : SortDirection) : Json := .string d.key

def SortDirection.ofJson : Json → Decoded SortDirection :=
  Json.asNamed fun key => SortDirection.all.find? (·.key == key)

def Dialect.toJson (d : Dialect) : Json := .string d.name

def Dialect.ofJson : Json → Decoded Dialect := Json.asNamed Dialect.ofName?

/-! ## Terms -/

namespace Pattern

def toJson : Pattern → Json
  | exact v => .object [("kind", .string "exact"), ("value", .string v)]
  | wildcard v tokenize =>
    .object [("allow_tokenization", .bool tokenize), ("kind", .string "wildcard"),
      ("value", .string v)]
  | lenient v => .object [("kind", .string "lenient"), ("value", .string v)]

end Pattern

namespace Scalar

def toJson : Scalar → Json
  | null => .object [("kind", .string "null")]
  | text p => p.toJson

/-- The scalar of a kind with the given members; `none` if there is no such kind of scalar. -/
def ofMembers (kind : String) (members : List (String × Json)) : Option (Decoded Scalar) :=
  let value := Json.member "value" Json.asString members
  if kind = "exact" then some do
    return .text (.exact (← .require (← value)))
  else if kind = "lenient" then some do
    return .text (.lenient (← .require (← value)))
  else if kind = "wildcard" then some do
    let tokenize ← Json.member "allow_tokenization" Json.asBool members
    let value ← value
    return .text (.wildcard (← .require value) (← .require tokenize))
  else if kind = "null" then some (.ok .null)
  else none

/-- The names of the members of a scalar next to its kind, in the order in which an array has
them. -/
def partNames (kind : String) : List String :=
  if kind = "null" then []
  else if kind = "wildcard" then ["value", "allow_tokenization"]
  else ["value"]

/-- The scalar of a kind with the given items; `none` if there is no such kind of scalar. -/
def ofItems (kind : String) (items : List Json) : Option (Decoded Scalar) :=
  (ofMembers kind ((partNames kind).zip items)).map fun s => do
    let s ← s
    if items.length ≤ (partNames kind).length then return s else .error .form

end Scalar

namespace TermCollection

def toJson (c : TermCollection) : Json := .array (c.members.map Scalar.toJson)

/-- The collection of terms, or what is wrong with them. -/
def ofDecoded (terms : List Term) : Decoded TermCollection :=
  (ofTerms? terms).mapError .collection

end TermCollection

namespace Term

def toJson : Term → Json
  | scalar s => s.toJson
  | collection c => .object [("kind", .string "collection"), ("terms", c.toJson)]

mutual

/-- The term that a JSON value stands for. In an array the kind comes first. -/
def ofJson : Json → Decoded Term
  | .object members => do
    let kind ← .require (← Json.member "kind" Json.asString members)
    match Scalar.ofMembers kind members with
    | some s => return .scalar (← s)
    | none =>
      if kind = "collection" then
        return .collection (← .require (← ofTerms none members))
      else .error .form
  | .array (.string kind :: items) =>
    match Scalar.ofItems kind items with
    | some s => return .scalar (← s)
    | none =>
      if kind = "collection" then
        match items with
        | .array terms :: rest => do
          let c ← TermCollection.ofDecoded (← ofEach terms)
          if rest.isEmpty then return .collection c else .error .form
        | _ => .error .form
      else .error .form
  | _ => .error .form

/-- The collection of the member `terms`, if there is one; `found` is what an earlier member of
that name gave. -/
def ofTerms (found : Option TermCollection) :
    List (String × Json) → Decoded (Option TermCollection)
  | [] => .ok found
  | (name, value) :: rest =>
    if name = "terms" then
      match found, value with
      | none, .array items => do ofTerms (some (← TermCollection.ofDecoded (← ofEach items))) rest
      | _, _ => .error .form
    else ofTerms found rest

/-- The terms that several JSON values stand for. -/
def ofEach : List Json → Decoded (List Term)
  | [] => .ok []
  | j :: rest => do
    let t ← ofJson j
    let ts ← ofEach rest
    return t :: ts

end

end Term

/-- The collection that an array of terms stands for. -/
def TermCollection.ofJson (j : Json) : Decoded TermCollection := do
  TermCollection.ofDecoded (← j.asList Term.ofJson)

/-! ## Expressions -/

namespace Predicate

def toJson (p : Predicate) : Json :=
  .object [("field", p.field.toJson), ("operand", p.operand.toJson), ("term", p.term.toJson)]

def ofMembers (members : List (String × Json)) : Decoded Predicate := do
  let field ← Json.member "field" Field.ofJson members
  let operand ← Json.member "operand" Operand.ofJson members
  let term ← Json.member "term" Term.ofJson members
  return ⟨← .require field, ← .require operand, ← .require term⟩

def ofJson : Json → Decoded Predicate := Json.asParts ["field", "operand", "term"] ofMembers

end Predicate

namespace Expression

/-- A clause as the value of the member `clause`. -/
def clauseJson (op : Connective) (children : List Json) : Json :=
  .object [("children", .array children), ("operand", op.toJson)]

def toJson : Expression → Json :=
  Formula.fold (fun p => .object [("predicate", p.toJson)]) fun op first rest =>
    .object [("clause", clauseJson op (first :: rest))]

mutual

/-- The expression that a JSON value stands for. -/
def ofJson : Json → Decoded Expression
  | .object [(name, value)] =>
    if name = "predicate" then (Predicate.ofJson value).map .atom
    else if name = "clause" then
      match value with
      | .object members => do
        let children ← ofChildren none members
        let op ← Json.member "operand" Connective.ofJson members
        match op, children with
        | some op, some children => (Formula.ofChildren? op children).mapError .emptyClause
        | _, _ => .error .form
      | .array (op :: .array items :: rest) => do
        let op ← Connective.ofJson op
        let children ← ofEach items
        if rest.isEmpty then (Formula.ofChildren? op children).mapError .emptyClause
        else .error .form
      | _ => .error .form
    else .error .form
  | _ => .error .form

/-- The expressions of the member `children`, if there is one; `found` is what an earlier member
of that name gave. -/
def ofChildren (found : Option (List Expression)) :
    List (String × Json) → Decoded (Option (List Expression))
  | [] => .ok found
  | (name, value) :: rest =>
    if name = "children" then
      match found, value with
      | none, .array items => do ofChildren (some (← ofEach items)) rest
      | _, _ => .error .form
    else ofChildren found rest

/-- The expressions that several JSON values stand for. -/
def ofEach : List Json → Decoded (List Expression)
  | [] => .ok []
  | j :: rest => do
    let e ← ofJson j
    let es ← ofEach rest
    return e :: es

end

/-- What the member `clause` stands for. -/
def clauseOfJson (j : Json) : Decoded Expression := ofJson (.object [("clause", j)])

end Expression

/-! ## Conditions -/

namespace Parameters

def toJson (p : Parameters) : Json :=
  .object (p.sorted.map fun (name, value) => (name, .string value))

def ofJson (j : Json) : Decoded Parameters := do
  let entries ← (← j.asObject).mapM fun (name, value) => do return (name, ← value.asString)
  return .ofList entries

end Parameters

namespace Condition

def toJson (c : Condition) : Json :=
  .object [("sql_text", .string c.sqlText), ("parameters", c.parameters.toJson),
    ("namespace", .string c.ns)]

def ofJson : Json → Decoded Condition :=
  Json.asParts ["sql_text", "parameters", "namespace"] fun members => do
    let ns ← Json.member "namespace" Json.asString members
    let parameters ← Json.member "parameters" Parameters.ofJson members
    let sqlText ← Json.member "sql_text" Json.asString members
    return ⟨← .require sqlText, ← .require parameters, ← .require ns⟩

end Condition

/-! ## Settings -/

namespace Settings

def toJson (s : Settings) : Json :=
  .object [("dialect", s.dialect.toJson), ("component_namespace", .string s.componentNs),
    ("asset_namespace", .string s.assetNs), ("log_level", .string s.logLevel)]

def ofJson : Json → Decoded Settings :=
  Json.asParts ["dialect", "component_namespace", "asset_namespace", "log_level"] fun members => do
    let dialect ← Json.member "dialect" Dialect.ofJson members
    let componentNs ← Json.member "component_namespace" Json.asString members
    let assetNs ← Json.member "asset_namespace" Json.asString members
    let logLevel ← Json.member "log_level" Json.asString members
    return ⟨← .require dialect, ← .require componentNs, ← .require assetNs, ← .require logLevel⟩

end Settings

end SearchFilter
