import SearchFilter.Compile
import SearchFilter.Dialect

/-!
# Settings

The dialect that conditions are written for, and the namespaces that keep the placeholders of
component conditions and of asset conditions apart.
-/

namespace SearchFilter

/-- How conditions are compiled. -/
structure Settings where
  dialect : Dialect
  componentNs : String
  assetNs : String
  logLevel : String
  deriving DecidableEq, Repr

/-- What is wrong with settings. -/
inductive SettingsError where
  /-- The namespace of this kind of condition is empty. -/
  | emptyNamespace (kind : String)
  | malformedNamespace (kind ns : String)
  | equalNamespaces
  deriving DecidableEq, Repr

def SettingsError.message : SettingsError → String
  | emptyNamespace kind => s!"{kind} namespace cannot be empty"
  | malformedNamespace kind ns =>
    s!"{kind} namespace '{ns}' must be a letter or underscore followed by letters, digits or " ++
      "underscores"
  | equalNamespaces => "Component and asset namespaces must differ"

namespace Settings

/-- The settings of those who ask for none. -/
def default : Settings := ⟨.postgres, "filterParams", "assetFilterParams", "info"⟩

/-- What is wrong with one namespace. -/
def namespaceErrors (kind ns : String) : List SettingsError :=
  if ns.isEmpty then [.emptyNamespace kind]
  else if isIdentifier ns.toList then []
  else [.malformedNamespace kind ns]

/-- What is wrong with settings, nothing if they are valid. -/
def errors (s : Settings) : List SettingsError :=
  namespaceErrors "Component" s.componentNs ++ namespaceErrors "Asset" s.assetNs ++
    if s.componentNs = s.assetNs then [.equalNamespaces] else []

/-- The condition of an expression, with its placeholders in the given namespace. -/
def compile (s : Settings) (ns : String) (e : Expression) : Except InvalidExpression Condition :=
  Expression.compile s.dialect ns e

/-- The condition of an expression on components. -/
def componentFilter (s : Settings) (e : Expression) : Except InvalidExpression Condition :=
  s.compile s.componentNs e

/-- The condition of an expression on assets. -/
def assetFilter (s : Settings) (e : Expression) : Except InvalidExpression Condition :=
  s.compile s.assetNs e

end Settings

end SearchFilter
