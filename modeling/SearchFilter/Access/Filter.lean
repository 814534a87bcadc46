import SearchFilter.Access.Consultation
import SearchFilter.Selector.Expression

/-!
# Access filters

What a user may see of some repositories, as a search expression. A repository contributes in one
of two ways, or in both, or not at all: when the user may browse or read it, all of it is seen;
and by each selector that is active for it, what that selector says of it.

A filter that would let nothing through is an error, and so is a selector that gives no
expression. When selectors cannot be looked up, none is used, also none that was found before.
-/

namespace SearchFilter

/-- The repositories that a request is about. -/
inductive Scope where
  /-- These repositories, which all have to be known. -/
  | named (names : List String)
  /-- The known repositories of the request's format. -/
  | ofFormat
  deriving DecidableEq, Repr

/-- A request for an access filter. -/
structure AccessRequest where
  scope : Scope
  format : String
  /-- Selectors are left aside; permissions are not. -/
  unauthorized : Bool
  deriving DecidableEq, Repr

/-- The same request with selectors left aside. -/
def AccessRequest.withoutAuthorization (request : AccessRequest) : AccessRequest :=
  { request with unauthorized := true }

/-- Why there is no access filter. -/
inductive AccessError where
  | unknownRepositories (names : List String)
  | noAccess
  | selector (name : String) (cause : SelectorError)
  deriving DecidableEq, Repr

def AccessError.message : AccessError → String
  | unknownRepositories names => "unknown repositories: " ++ ", ".intercalate names
  | noAccess => "no access to the requested repositories"
  | selector name cause => s!"content selector '{name}' is invalid: {cause.message}"

/-- What an access filter is composed with. -/
structure AccessPolicy where
  directory : Directory
  aliases : Aliases
  reader : Selector.Reader

namespace AccessPolicy

variable (policy : AccessPolicy)

/-- The actions that let a user see all of a repository. -/
def seeing : List Action := [.browse, .read]

/-! ## Repositories -/

/-- Parts names into those of known repositories and the others. -/
def partKnown : List String → Consultation AccessError (List String × List String)
  | [] => pure ([], [])
  | name :: rest => do
    let repository ← policy.directory.askRepository name
    let (known, unknown) ← partKnown rest
    if repository.isSome then return (name :: known, unknown)
    else return (known, name :: unknown)

/-- The repositories of a request, each once. -/
def resolve (request : AccessRequest) : Consultation AccessError (List String) :=
  match request.scope with
  | .named names => do
    let (known, unknown) ← partKnown policy names
    if unknown.isEmpty then return firstOccurrences known
    else .fail (.unknownRepositories unknown)
  | .ofFormat => do
    let names ← policy.directory.askNames request.format
    let (known, _) ← partKnown policy names
    return firstOccurrences known

/-- The repositories that a user may see all of. -/
def visible (format : String) : List String → Consultation AccessError (List String)
  | [] => pure []
  | name :: rest => do
    let permitted ← policy.directory.askPermission name format seeing
    let others ← visible format rest
    return if permitted then name :: others else others

/-! ## Selectors -/

/-- What a selector says, confined to one repository. -/
def confine (repository : String) (s : NamedSelector) : Except AccessError Expression :=
  match Selector.expressionOf policy.reader policy.aliases s.text with
  | .ok e =>
    .ok (e.flatten .and [Expression.compare .repository .eq (.exact repository)])
  | .error cause => .error (.selector s.name cause)

/-- What some selectors say, confined to one repository. Those in a language that gives no
expression are left out. -/
def confineAll (repository : String) (selectors : List NamedSelector) :
    Except AccessError (List Expression) :=
  (selectors.filter (·.language == .csel)).mapM (confine policy repository)

/-- What the selectors of repositories say, or `none` when some cannot be looked up. -/
def selected? (format : String) :
    List String → Consultation AccessError (Option (List Expression))
  | [] => pure (some [])
  | name :: rest => do
    match ← policy.directory.askSelectors [name] [format] with
    | none => return none
    | some selectors =>
      let here ← .ofExcept (confineAll policy name selectors)
      let later ← selected? format rest
      return later.map (here ++ ·)

/-! ## The filter -/

/-- The predicate of the repositories that a user may see all of, if there are any. -/
def visiblePart : List String → List Expression
  | [] => []
  | names => [Expression.compare .repository .oneOf (.exactValues names)]

/-- The expression of what a user may see. -/
def compose (request : AccessRequest) : Consultation AccessError Expression := do
  let names ← resolve policy request
  let visible ← visible policy request.format names
  let selected ←
    if request.unauthorized then pure none else selected? policy request.format names
  match visiblePart visible ++ selected.getD [] with
  | [] => .fail .noAccess
  | first :: rest => return first.flatten .or rest

end AccessPolicy

end SearchFilter
