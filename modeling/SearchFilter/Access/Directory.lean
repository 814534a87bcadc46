/-!
# Repositories, permissions and active selectors

What has to be known about an installation to say what a user may see. Whoever composes an access
filter is given a `Directory`, which answers for the current user; a `Listing` is a directory
written out.
-/

namespace SearchFilter

/-- What a user may be permitted to do with a repository. -/
inductive Action where
  | browse
  | read
  deriving DecidableEq, Repr

namespace Action

def all : List Action := [browse, read]

def name : Action → String
  | browse => "browse"
  | read => "read"

end Action

/-- A repository and the format of its components. -/
structure Repository where
  name : String
  format : String
  deriving DecidableEq, Repr

/-- The language of a selector. One in `jexl` is evaluated elsewhere and gives no expression. -/
inductive SelectorLanguage where
  | csel
  | jexl
  deriving DecidableEq, Repr

namespace SelectorLanguage

def all : List SelectorLanguage := [csel, jexl]

def name : SelectorLanguage → String
  | csel => "csel"
  | jexl => "jexl"

end SelectorLanguage

/-- A content selector as an administrator keeps it. -/
structure NamedSelector where
  name : String
  language : SelectorLanguage
  text : String
  deriving DecidableEq, Repr

/-- What is known about repositories and the current user. -/
structure Directory where
  /-- The repository of a name. -/
  repository? : String → Option Repository
  /-- The names of the repositories of a format. -/
  namesOfFormat : String → List String
  /-- Whether one of some actions is permitted on a repository with components of a format. -/
  permits : (repository format : String) → List Action → Bool
  /-- The selectors active for repositories and formats, unless they cannot be looked up. -/
  selectors? : (repositories formats : List String) → Option (List NamedSelector)

/-! ## Listings -/

/-- Actions permitted on a repository, for one format or for all. -/
structure Grant where
  repository : String
  format? : Option String
  actions : List Action
  deriving DecidableEq, Repr

/-- A selector that is active for a repository, for one format or for all. -/
structure Assignment where
  repository : String
  format? : Option String
  selector : NamedSelector
  deriving DecidableEq, Repr

/-- A directory written out. -/
structure Listing where
  repositories : List Repository
  /-- Names that are given for every format and belong to no repository. -/
  phantoms : List String
  grants : List Grant
  assignments : List Assignment
  /-- The repositories whose selectors cannot be looked up. -/
  unreachable : List String
  deriving DecidableEq, Repr

namespace Listing

/-- Whether something said of one format, or of all, is said of some formats. -/
def covers (format? : Option String) (formats : List String) : Bool :=
  match format? with
  | none => true
  | some f => formats.contains f

/-- What a listing has to say. Of two repositories with the same name the first one counts. -/
def directory (l : Listing) : Directory where
  repository? name := l.repositories.find? (·.name == name)
  namesOfFormat format :=
    (l.repositories.filter (·.format == format)).map (·.name) ++ l.phantoms
  permits repository format actions :=
    l.grants.any fun g =>
      g.repository == repository && covers g.format? [format] && g.actions.any actions.contains
  selectors? repositories formats :=
    if l.unreachable.any repositories.contains then none
    else
      some ((l.assignments.filter fun a =>
        repositories.contains a.repository && covers a.format? formats).map (·.selector))

end Listing

end SearchFilter
