import SearchFilter.Encoding.ExpressionText
import SearchFilter.Encoding.Printer
import SearchFilter.Selector.Expression
import SearchFilter.Settings.Options

/-!
# The command line

A command names what is compiled, a selector or an expression in JSON, and takes its text. The
options of the settings stand before it. Two switches can stand on either side of it: one chooses
the namespace of assets, the other asks for the text with its values as well.

The condition is printed as indented JSON. Everything that a run prints is decided here, from the
arguments and the environment alone.
-/

namespace SearchFilter

/-! ## Reading arguments -/

/-- What a command compiles. -/
inductive Command where
  | selector
  | expression
  deriving DecidableEq, Repr

namespace Command

def all : List Command := [selector, expression]

def name : Command → String
  | selector => "selector"
  | expression => "expression"

def ofName? (name : String) : Option Command := all.find? (·.name == name)

end Command

/-- The switches of a command line. -/
structure Switches where
  asset : Bool
  inlined : Bool
  deriving DecidableEq, Repr

namespace Switches

def none : Switches := ⟨false, false⟩

/-- The switches that are on in one or the other. -/
def merge (a b : Switches) : Switches := ⟨a.asset || b.asset, a.inlined || b.inlined⟩

/-- Turns on the switch of an option; `none` if there is no such switch. To turn one on twice is
an error. -/
def turnOn? (s : Switches) (name : String) (value? : Option String) :
    Option (Except Stop Switches) :=
  if name = "asset" then
    some (if value?.isSome then .error .unneededValue
      else if s.asset then .error .conflict
      else .ok { s with asset := true })
  else if name = "inline" then
    some (if value?.isSome then .error .unneededValue
      else if s.inlined then .error .conflict
      else .ok { s with inlined := true })
  else .none

end Switches

/-- Where a command line stands after its command. -/
structure CommandState where
  switches : Switches
  text? : Option String
  /-- Nothing is an option any more. -/
  divided : Bool
  deriving DecidableEq, Repr

namespace CommandState

def start : CommandState := ⟨.none, none, false⟩

/-- Takes a word as the command's text. -/
def take (s : CommandState) (word : String) : Except Stop CommandState :=
  if s.text?.isSome then .error .unknownArgument else .ok { s with text? := some word }

/-- Takes one argument. -/
def step (s : CommandState) (arg : String) : Except Stop CommandState :=
  if s.divided then s.take arg
  else
    match Argument.ofString arg with
    | .word text => s.take text
    | .divider => .ok { s with divided := true }
    | .short letters => .error (if letters.head? = some 'h' then .help else .unknownArgument)
    | .long name value? =>
      match s.switches.turnOn? name value? with
      | some switches => switches.map fun switches => { s with switches }
      | none =>
        if name = "help" then .error (if value?.isSome then .unneededValue else .help)
        else .error .unknownArgument

end CommandState

/-- Reads the arguments after a command. -/
def readCommand (args : List String) : Except Stop (Switches × String) := do
  let s ← args.foldlM CommandState.step .start
  match s.text? with
  | some text => return (s.switches, text)
  | none => .error .missingArgument

/-- What a run is asked to do. -/
structure Invocation where
  choices : Choices
  switches : Switches
  command : Command
  text : String
  deriving DecidableEq, Repr

/-- Reads the words after `help`, which may be the name of one command. -/
def readHelp : List String → Stop
  | [] => .help
  | [name] => if name = "help" ∨ (Command.ofName? name).isSome then .help else .unknownArgument
  | _ => .unknownArgument

/-- Reads all arguments. An option that waits for its value takes the next word, whatever it says;
otherwise a word has to name a command. -/
def readInvocation (s : OptionState) (switches : Switches) :
    List String → Except Stop Invocation
  | [] => do let _ ← s.settle; .error .missingArgument
  | arg :: rest =>
    match Argument.ofString arg with
    | .long name value? =>
      match Setting.ofOption? name with
      | some setting => do readInvocation (← s.meet setting value?) switches rest
      | none =>
        match switches.turnOn? name value? with
        | some turned => do readInvocation (← s.settle) (← turned) rest
        | none =>
          if name = "help" ∨ name = "version" then
            if value?.isSome then .error .unneededValue
            else do
              let _ ← s.settle
              .error (if name = "help" then .help else .version)
          else .error .unknownArgument
    | .short letters =>
      match letters.head? with
      | some 'h' => do let _ ← s.settle; .error .help
      | some 'V' => do let _ ← s.settle; .error .version
      | _ => .error .unknownArgument
    | .divider => .error (if rest.isEmpty then .missingArgument else .unknownArgument)
    | .word word =>
      match s.take? word with
      | some s => readInvocation s switches rest
      | none =>
        match Command.ofName? word with
        | some command => do
          let (others, text) ← readCommand rest
          let s ← s.settle
          return ⟨s.choices, switches.merge others, command, text⟩
        | none => .error (if word = "help" then readHelp rest else .unknownArgument)

/-! ## Running -/

/-- Why a run that is asked for properly comes to nothing. -/
inductive RunError where
  | settings (errors : List SettingsError)
  | selector (text : String) (cause : SelectorError)
  | json
  | expression (cause : InvalidExpression)
  deriving DecidableEq, Repr

/-- A text whose lines stand four spaces in. -/
def indentLines (s : String) : String :=
  String.ofList (' ' :: ' ' :: ' ' :: ' ' :: s.toList.flatMap fun c =>
    if c = '\n' then ['\n', ' ', ' ', ' ', ' '] else [c])

/-- What is reported of a run that comes to nothing. -/
def RunError.report : RunError → String
  | settings errors => String.join (errors.map fun e => s!"Configuration error: {e.message}\n")
  | selector text cause =>
    s!"Error: Invalid content selector: {text}\n\nCaused by:\n{indentLines cause.message}\n"
  | json => "Error: Invalid search expression JSON"
  | expression cause => s!"Error: {cause.message}\n"

/-- The expression that a command's text stands for. -/
def Command.read (command : Command) (text : String) : Except RunError Expression :=
  match command with
  | selector => (Selector.expressionOf Selector.read .standard text).mapError (.selector text)
  | expression =>
    match Expression.ofText? text with
    | some e => .ok e
    | none => .error .json

/-- What a run prints. The settings are looked at before the text is. -/
def runWith (settings : Settings) (i : Invocation) : Except RunError String := do
  if !settings.errors.isEmpty then throw (.settings settings.errors)
  let e ← i.command.read i.text
  let compiled := if i.switches.asset then settings.assetFilter e else settings.componentFilter e
  let condition ← compiled.mapError .expression
  let inlined := if i.switches.inlined then condition.inlined ++ "\n" else ""
  return condition.toJson.indented "" ++ "\n" ++ inlined

/-- How a run ends. -/
inductive RunResult where
  | printed (text : String)
  | failed (error : RunError)
  /-- The arguments ask for help, or for something that cannot be done. -/
  | stopped (why : Stop)
  deriving DecidableEq, Repr

namespace RunResult

def versionText : String := "0.1.0"

def exitCode : RunResult → Nat
  | printed _ => 0
  | failed _ => 1
  | stopped .help | stopped .version => 0
  | stopped _ => 2

/-- What a run has to say of its use. -/
def usage : String :=
  "Usage: search-sql [OPTIONS] <COMMAND> <TEXT>\n\n" ++
  "Commands:\n  selector    Compile a content selector\n" ++
  "  expression  Compile a JSON-encoded search expression\n\n" ++
  "Options:\n  --dialect <postgres|h2>\n  --component-namespace <NAME>\n" ++
  "  --asset-namespace <NAME>\n  --log-level <LEVEL>\n  --asset\n  --inline\n" ++
  "  -h, --help\n  -V, --version\n"

def stdout : RunResult → String
  | printed text => text
  | stopped .help => usage
  | stopped .version => s!"search-sql {versionText}\n"
  | failed _ | stopped _ => ""

def stderr : RunResult → String
  | failed error => error.report
  | printed _ | stopped .help | stopped .version => ""
  | stopped _ => usage

end RunResult

/-- The end of a run with the given arguments and environment. -/
def run (args : List String) (env : String → Option String) : RunResult :=
  let read := do
    let i ← readInvocation .start .none args
    let settings ← i.choices.settingsIn env
    return (i, settings)
  match read with
  | .error why => .stopped why
  | .ok (i, settings) =>
    match runWith settings i with
    | .ok text => .printed text
    | .error error => .failed error

end SearchFilter
