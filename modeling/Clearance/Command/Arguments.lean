import Clearance.Settings.Environment

/-!
The arguments of the command line. Options that hold for every command may stand before the command
and after it; what stands after it counts more, and both count more than the environment.
-/
namespace Clearance.Command

structure Invocation where
  config : Option String := none
  logLevel : Option String := none
  operation : String
  grants : Option String := none
  principal : Option String := none
  json : Bool := false
  metrics : Bool := false
deriving DecidableEq, Repr

inductive Request where
  | version
  | help
  | check (i : Invocation)
deriving DecidableEq, Repr

inductive UsageError where
  | unknownArgument (argument : String)
  | unknownCommand (name : String)
  | missingValue (option : String)
  | emptyValue (option : String)
  | unexpectedValue (option : String)
  | repeated (option : String)
  | missingOption (option : String)
  | noCommand
deriving DecidableEq, Repr

def UsageError.message : UsageError → String
  | .unknownArgument a => s!"unexpected argument '{a}' found"
  | .unknownCommand n => s!"unrecognized subcommand '{n}'"
  | .missingValue o => s!"a value is required for '{o}' but none was supplied"
  | .emptyValue o => s!"a value is required for '{o}' but it is empty"
  | .unexpectedValue o => s!"unexpected value for '{o}'"
  | .repeated o => s!"the argument '{o}' cannot be used multiple times"
  | .missingOption o => s!"the required argument '{o}' was not provided"
  | .noCommand => "a subcommand is required"

/-- The options that were given on one side of the command. -/
structure Given where
  values : List (String × String) := []
  flags : List String := []

namespace Given

def value? (g : Given) (option : String) : Option String := g.values.lookup option

end Given

def sharedOptions : List (String × Bool) := [("--config", false), ("--log-level", true)]

def checkOptions : List (String × Bool) :=
  sharedOptions ++ [("--operation", false), ("--grants", false), ("--principal", true)]

def checkFlags : List String := ["--json", "--metrics"]

/-- An argument as it is written: an option's name and a value that is written with it. -/
inductive Written where
  | option (name : String) (value : Option String)
  | rest
  | word (s : String)

/-- The one option with a short name may have its value right after it. -/
def written (argument : String) : Written :=
  match argument.toList with
  | ['-', '-'] => .rest
  | '-' :: '-' :: cs =>
    match cs.span (· != '=') with
    | (name, '=' :: value) => .option (String.ofList ('-' :: '-' :: name)) (some (String.ofList value))
    | _ => .option argument none
  | ['-', 'c'] => .option "--config" none
  | '-' :: 'c' :: '=' :: value => .option "--config" (some (String.ofList value))
  | '-' :: 'c' :: value => .option "--config" (some (String.ofList value))
  | '-' :: 'V' :: _ => .option "--version" none
  | '-' :: 'h' :: _ => .option "--help" none
  | '-' :: _ :: _ => .option argument none
  | _ => .word argument

inductive Scanned where
  | asked (r : Request)
  | upTo (g : Given) (word : String) (rest : List String)
  | toEnd (g : Given)

/-- The level of a command line: its options, its flags, and whether the version can be asked for. -/
structure Level where
  options : List (String × Bool)
  flags : List String
  hasVersion : Bool

def addValue (level : Level) (g : Given) (name value : String) : Except UsageError Given :=
  match level.options.lookup name with
  | none => .error (.unknownArgument name)
  | some mayBeEmpty =>
    if (g.value? name).isSome then .error (.repeated name)
    else if value.isEmpty && !mayBeEmpty then .error (.emptyValue name)
    else .ok { g with values := (name, value) :: g.values }

def addFlag (level : Level) (g : Given) (name : String) : Except UsageError Given :=
  if !level.flags.contains name then .error (.unknownArgument name)
  else if g.flags.contains name then .error (.repeated name)
  else .ok { g with flags := name :: g.flags }

def isValue (word : String) : Bool := !word.startsWith "-" || word == "-"

def scan (level : Level) (g : Given) : List String → Except UsageError Scanned
  | [] => .ok (.toEnd g)
  | argument :: rest =>
    match written argument with
    | .word word => .ok (.upTo g word rest)
    | .rest =>
      match rest with
      | [] => .ok (.toEnd g)
      | word :: _ => .error (.unknownArgument word)
    | .option name (some value) =>
      if (level.options.lookup name).isSome then do
        scan level (← addValue level g name value) rest
      else if level.flags.contains name || name == "--help" then .error (.unexpectedValue name)
      else .error (.unknownArgument argument)
    | .option name none =>
      if name == "--help" then .ok (.asked .help)
      else if name == "--version" && level.hasVersion then .ok (.asked .version)
      else if (level.options.lookup name).isSome then
        match rest with
        | value :: rest =>
          if isValue value then do scan level (← addValue level g name value) rest
          else .error (.missingValue name)
        | [] => .error (.missingValue name)
      else do scan level (← addFlag level g name) rest

def mainLevel : Level := ⟨sharedOptions, [], true⟩

def checkLevel : Level := ⟨checkOptions, checkFlags, false⟩

/-- The variable that names the settings file where no option does. -/
def configVariable : String := "OPSGUARD_CONFIG"

/-- The settings file. The variable must not be empty where the option is left out. -/
def configPath (before after : Given) (e : Environment) : Except UsageError (Option String) :=
  let option := "--config"
  let givenTwice := (before.value? option).isSome && (after.value? option).isSome
  if e.get? configVariable = some "" && !givenTwice then .error (.emptyValue option)
  else .ok (((after.value? option).or (before.value? option)).or (e.get? configVariable))

def invocation (before after : Given) (e : Environment) : Except UsageError Invocation := do
  let config ← configPath before after e
  match after.value? "--operation" with
  | none => .error (.missingOption "--operation")
  | some operation => .ok {
      config
      logLevel := (after.value? "--log-level").or (before.value? "--log-level")
      operation
      grants := after.value? "--grants"
      principal := after.value? "--principal"
      json := after.flags.contains "--json"
      metrics := after.flags.contains "--metrics" }

/-- The words after the command that asks for help: none, or the one command that it is about. -/
def helpOn : List String → Except UsageError Request
  | [] => .ok .help
  | name :: rest =>
    if name ≠ "check" ∧ name ≠ "help" then .error (.unknownCommand name)
    else
      match rest with
      | [] => .ok .help
      | word :: _ => .error (.unknownCommand word)

def parse (arguments : List String) (e : Environment) : Except UsageError Request := do
  match ← scan mainLevel {} arguments with
  | .asked r => .ok r
  | .toEnd _ => .error .noCommand
  | .upTo before "check" rest =>
    match ← scan checkLevel {} rest with
    | .asked r => .ok r
    | .upTo _ word _ => .error (.unknownArgument word)
    | .toEnd after => return .check (← invocation before after e)
  | .upTo _ "help" rest => helpOn rest
  | .upTo _ word _ => .error (.unknownCommand word)

end Clearance.Command
