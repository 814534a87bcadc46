import SearchFilter.Access.Directory
import SearchFilter.Encoding.Decode

/-!
# The JSON form of repositories, selectors and listings
-/

namespace SearchFilter

def Action.toJson (a : Action) : Json := .string a.name

def Action.ofJson : Json → Decoded Action :=
  Json.asNamed fun name => Action.all.find? (·.name == name)

def SelectorLanguage.toJson (l : SelectorLanguage) : Json := .string l.name

def SelectorLanguage.ofJson : Json → Decoded SelectorLanguage :=
  Json.asNamed fun name => SelectorLanguage.all.find? (·.name == name)

namespace Repository

def toJson (r : Repository) : Json :=
  .object [("name", .string r.name), ("format", .string r.format)]

def ofJson : Json → Decoded Repository :=
  Json.asParts ["name", "format"] fun members => do
    let format ← Json.member "format" Json.asString members
    let name ← Json.member "name" Json.asString members
    return ⟨← .require name, ← .require format⟩

/-- A repository as the pair of its name and its format. -/
def ofPair : Json → Decoded Repository
  | .array [name, format] => do return ⟨← name.asString, ← format.asString⟩
  | _ => .error .form

end Repository

namespace NamedSelector

def toJson (s : NamedSelector) : Json :=
  .object [("name", .string s.name), ("type", s.language.toJson), ("expression", .string s.text)]

def ofJson : Json → Decoded NamedSelector :=
  Json.asParts ["name", "type", "expression"] fun members => do
    let text ← Json.member "expression" Json.asString members
    let name ← Json.member "name" Json.asString members
    let language ← Json.member "type" SelectorLanguage.ofJson members
    return ⟨← .require name, ← .require language, ← .require text⟩

end NamedSelector

namespace Listing

def grantOfJson (j : Json) : Decoded Grant := do
  let members ← j.asObject
  let actions ← Json.member "actions" (Json.asList Action.ofJson) members
  let format ← Json.member "format" (Json.orNull Json.asString) members
  let repository ← Json.member "repository" Json.asString members
  return ⟨← .require repository, format.join, ← .require actions⟩

def assignmentOfJson (j : Json) : Decoded Assignment := do
  let members ← j.asObject
  let format ← Json.member "format" (Json.orNull Json.asString) members
  let repository ← Json.member "repository" Json.asString members
  let selector ← Json.member "selector" NamedSelector.ofJson members
  return ⟨← .require repository, format.join, ← .require selector⟩

/-- The listing that the members of an object describe. Only the repositories have to be there. -/
def ofMembers (members : List (String × Json)) : Decoded Listing := do
  let unreachable ← Json.member "fail_on" (Json.asList Json.asString) members
  let grants ← Json.member "grants" (Json.asList grantOfJson) members
  let phantoms ← Json.member "phantom" (Json.asList Json.asString) members
  let repositories ← Json.member "repositories" (Json.asList Repository.ofPair) members
  let assignments ← Json.member "selectors" (Json.asList assignmentOfJson) members
  return ⟨← .require repositories, phantoms.getD [], grants.getD [], assignments.getD [],
    unreachable.getD []⟩

end Listing

end SearchFilter
