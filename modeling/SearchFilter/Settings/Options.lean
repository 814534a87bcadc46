import SearchFilter.Settings

/-!
# Settings from a command line and an environment

Each setting is an option with a value, `--name value` or `--name=value`, and a variable of the
environment, which counts where the option is not given. An option is settled when the next one is
met, or at the end: only then is its value looked at. Reading stops at the first thing that cannot
be settled.
-/

namespace SearchFilter

/-- A setting that can be chosen. -/
inductive Setting where
  | dialect
  | componentNs
  | assetNs
  | logLevel
  deriving DecidableEq, Repr

namespace Setting

def all : List Setting := [dialect, componentNs, assetNs, logLevel]

/-- The name of the option, without its hyphens. -/
def optionName : Setting → String
  | dialect => "dialect"
  | componentNs => "component-namespace"
  | assetNs => "asset-namespace"
  | logLevel => "log-level"

/-- The name of the variable. -/
def envName : Setting → String
  | dialect => "SEARCH_SQL_DIALECT"
  | componentNs => "SEARCH_SQL_COMPONENT_NAMESPACE"
  | assetNs => "SEARCH_SQL_ASSET_NAMESPACE"
  | logLevel => "SEARCH_SQL_LOG_LEVEL"

def ofOption? (name : String) : Option Setting := all.find? (·.optionName == name)

end Setting

/-- Why the reading of a command line stops. -/
inductive Stop where
  /-- A value is missing, or is none of those that the option takes. -/
  | invalidValue
  | unknownArgument
  /-- An option is given twice. -/
  | conflict
  /-- A value is given to an option that takes none. -/
  | unneededValue
  | missingArgument
  | help
  | version
  deriving DecidableEq, Repr

/-! ## Arguments -/

/-- An argument by its form. -/
inductive Argument where
  | long (name : String) (value? : Option String)
  | short (letters : List Char)
  /-- Two hyphens: there are no options after it. -/
  | divider
  | word (text : String)
  deriving DecidableEq, Repr

namespace Argument

/-- The name before the first equals sign, and the value after it if there is one. -/
def long? (cs : List Char) : Argument :=
  match cs.dropWhile (· ≠ '=') with
  | [] => .long (String.ofList cs) none
  | _ :: value => .long (String.ofList (cs.takeWhile (· ≠ '='))) (some (String.ofList value))

/-- The form of an argument. A single hyphen is a word. -/
def ofString (s : String) : Argument :=
  match s.toList with
  | ['-', '-'] => .divider
  | '-' :: '-' :: cs => long? cs
  | '-' :: c :: cs => .short (c :: cs)
  | _ => .word s

end Argument

/-! ## Values -/

/-- The values given for settings so far. -/
structure Choices where
  dialect? : Option Dialect
  componentNs? : Option String
  assetNs? : Option String
  logLevel? : Option String
  deriving DecidableEq, Repr

namespace Choices

def none : Choices := ⟨.none, .none, .none, .none⟩

/-- Whether a setting has a value. -/
def has (c : Choices) : Setting → Bool
  | .dialect => c.dialect?.isSome
  | .componentNs => c.componentNs?.isSome
  | .assetNs => c.assetNs?.isSome
  | .logLevel => c.logLevel?.isSome

/-- Gives a value to a setting. A dialect has to be named exactly. -/
def put (c : Choices) (setting : Setting) (value : String) : Except Stop Choices :=
  match setting with
  | .dialect =>
    match Dialect.ofName? value with
    | some d => .ok { c with dialect? := some d }
    | .none => .error .invalidValue
  | .componentNs => .ok { c with componentNs? := some value }
  | .assetNs => .ok { c with assetNs? := some value }
  | .logLevel => .ok { c with logLevel? := some value }

/-- Takes the value of a setting from the environment, if it has none yet. -/
def putVariable (env : String → Option String) (c : Choices) (setting : Setting) :
    Except Stop Choices :=
  if c.has setting then .ok c
  else
    match env setting.envName with
    | some value => c.put setting value
    | .none => .ok c

/-- The settings, with the usual values where nothing is chosen. -/
def settings (c : Choices) : Settings where
  dialect := c.dialect?.getD Settings.default.dialect
  componentNs := c.componentNs?.getD Settings.default.componentNs
  assetNs := c.assetNs?.getD Settings.default.assetNs
  logLevel := c.logLevel?.getD Settings.default.logLevel

/-- The settings of what is chosen here and, failing that, in the environment. -/
def settingsIn (c : Choices) (env : String → Option String) : Except Stop Settings :=
  (Setting.all.foldlM (putVariable env) c).map settings

end Choices

/-! ## Options -/

/-- What has been read of a command line: the settled values, and the option that is not settled
yet, with its value once that is given. -/
structure OptionState where
  choices : Choices
  pending? : Option (Setting × Option String)
  deriving DecidableEq, Repr

namespace OptionState

def start : OptionState := ⟨.none, none⟩

/-- Settles the option that waits to be settled. -/
def settle (s : OptionState) : Except Stop OptionState :=
  match s.pending? with
  | none => .ok s
  | some (_, none) => .error .invalidValue
  | some (setting, some value) =>
    if s.choices.has setting then .error .conflict
    else (s.choices.put setting value).map fun choices => ⟨choices, none⟩

/-- Meets an option. A value that is part of the argument settles it at once. -/
def meet (s : OptionState) (setting : Setting) (value? : Option String) :
    Except Stop OptionState := do
  let s ← s.settle
  let s : OptionState := ⟨s.choices, some (setting, value?)⟩
  if value?.isSome then s.settle else return s

/-- The state after a word that is the value of an option, if an option waits for one. -/
def take? (s : OptionState) (word : String) : Option OptionState :=
  match s.pending? with
  | some (setting, none) => some ⟨s.choices, some (setting, some word)⟩
  | _ => none

end OptionState

/-- Reads arguments that are all options of settings. -/
def readOptions (s : OptionState) : List String → Except Stop Choices
  | [] => s.settle.map (·.choices)
  | arg :: rest =>
    match Argument.ofString arg with
    | .long name value? =>
      match Setting.ofOption? name with
      | some setting => do readOptions (← s.meet setting value?) rest
      | none =>
        if name = "help" then
          if value?.isSome then .error .unneededValue else do let _ ← s.settle; .error .help
        else .error .unknownArgument
    | .short letters =>
      if letters.head? = some 'h' then do let _ ← s.settle; .error .help
      else .error .unknownArgument
    | .divider => if rest.isEmpty then s.settle.map (·.choices) else .error .unknownArgument
    | .word text =>
      match s.take? text with
      | some s => readOptions s rest
      | none => .error .unknownArgument

namespace Settings

/-- The settings that a command line and an environment ask for. -/
def ofArguments (args : List String) (env : String → Option String) : Except Stop Settings := do
  let choices ← readOptions .start args
  choices.settingsIn env

/-- The settings that an environment asks for, or the usual ones if it cannot be followed. -/
def ofEnvironment (env : String → Option String) : Settings :=
  match ofArguments [] env with
  | .ok s => s
  | .error _ => .default

end Settings

end SearchFilter
