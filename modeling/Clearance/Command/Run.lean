import Clearance.Check
import Clearance.Command.Arguments
import Clearance.Counter.Exposition
import Clearance.Event.Filter
import Clearance.Settings.Load

/-!
A run of the program: from the arguments, the environment and the files to what is printed and how
the program ends. It ends with 0 if the operation is allowed, with 1 if it is rejected, and with 2 if
there was no answer.
-/
namespace Clearance.Command

inductive Failure where
  | settings (e : Settings.LoadError)
  | grants (e : GrantsError)
  | unreadable (path : String) (fault : ReadFault)
  | document (e : Document.Error)

/-- What is not settled by what a run is given: how the reader of TOML words what is wrong with a text,
and the order in which counters are let out. -/
structure Host where
  tomlFault : ByteArray → String := fun _ => "TOML parse error\n"
  drain : Counter.Drain := .counted

/-- The words on the file of a path, which has been read. -/
def Host.words (host : Host) (files : Files) (path : String) : String :=
  ((files path).toOption.map host.tomlFault).getD ""

/-- A problem of the settings is told twice, with what it was found in and as its own cause. -/
def Failure.message (words : String → String) : Failure → String
  | .settings e =>
    let cause := match e with
      | .missing _ => ""
      | .notToml path => ": " ++ Settings.notTomlMessage words path
      | .invalid p => ": " ++ p.message
    "loading configuration: " ++ e.message words ++ cause
  | .grants e => e.message
  | .unreadable path fault => s!"reading operation document {path}: {fault.message}"
  | .document e => checkFailure e

inductive Item where
  | text (s : String)
  | log (e : Event)

/-- What an item is printed as, given the time at which it is logged. -/
def Item.print (format : LogFormat) (time : String) : Item → String
  | .text s => s
  | .log e =>
    match format with
    | .json => e.line time ++ "\n"
    | .pretty => e.prettyLine time ++ "\n"

structure Transcript where
  output : List Item := []
  format : LogFormat := .json
  errors : List String := []
  exit : Nat

/-- The filter of a run, and the directives that it leaves out. The variable counts only if all of
its directives are well formed. -/
def chooseFilter (e : Environment) (i : Invocation) (s : Settings) : Event.Filter × List String :=
  match (e.get? "RUST_LOG").bind Event.Filter.parse? with
  | some f => (f, [])
  | none => Event.Filter.parseLossy (i.logLevel.getD s.telemetry.logLevel)

def loadGrants (files : Files) (i : Invocation) (s : Settings) :
    Except Failure (Option GrantTable) :=
  match i.grants.or s.authorization.grantsFile with
  | none => .ok none
  | some path => ((GrantTable.load files path).map some).mapError .grants

def outcome (files : Files) (i : Invocation) (s : Settings) (a : Authorizer) :
    Except Failure Outcome := do
  let t ← (files.readText i.operation).mapError (.unreadable i.operation)
  (check a s t i.principal).mapError .document

/-- The report of an outcome: its rejections, then the decision and the counters if they are asked
for. -/
def report (host : Host) (i : Invocation) (o : Outcome) : List String :=
  o.rejections.map (fun r => r.code ++ ": " ++ r.message ++ "\n") ++
    (if i.json then [(Json.Value.ofOption Decision.toValue o.decision).pretty ++ "\n"] else []) ++
    (if i.metrics then [Counter.exposition host.drain o.increments] else [])

/-- A run with its settings: the events up to the end or the failure, the report and the outcome. -/
def runCheck (files : Files) (i : Invocation) (s : Settings) (host : Host := {}) :
    List Item × Except Failure Outcome :=
  match loadGrants files i s with
  | .error f => ([], .error f)
  | .ok grants =>
    let (a, events) := s.authorizer grants
    match outcome files i s a with
    | .error f => (events.map .log, .error f)
    | .ok o =>
      let items := events.map .log ++ o.events.map .log ++ (report host i o).map .text ++
        [.log (.checked o.isAllowed)]
      (items, .ok o)

def Item.isPrinted (f : Event.Filter) : Item → Bool
  | .text _ => true
  | .log e => f.admits e

def failed (words : String → String) (f : Failure) : String := "error: " ++ f.message words

def ignored (directive : String) : String :=
  s!"ignoring `{directive}`: invalid filter directive"

def runInvocation (files : Files) (e : Environment) (i : Invocation) (host : Host := {}) :
    Transcript :=
  let failed := failed (host.words files)
  match Settings.load files i.config e with
  | .error err => { errors := [failed (.settings err)], exit := 2 }
  | .ok s =>
    let (filter, left) := chooseFilter e i s
    let (items, result) := runCheck files i s host
    let output := items.filter (·.isPrinted filter)
    let format := s.telemetry.logFormat
    match result with
    | .error f => { output, format, errors := left.map ignored ++ [failed f], exit := 2 }
    | .ok o => { output, format, errors := left.map ignored, exit := if o.isAllowed then 0 else 1 }

def usage : String := "Usage: opsguard [OPTIONS] <COMMAND>"

def run (arguments : List String) (files : Files) (e : Environment) (host : Host := {}) :
    Transcript :=
  match parse arguments e with
  | .error err => { errors := ["error: " ++ err.message ++ "\n\n" ++ usage], exit := 2 }
  | .ok .version => { output := [.text "opsguard 0.1.0\n"], exit := 0 }
  | .ok .help =>
    let about := "Authorize infrastructure operations against a grant table"
    { output := [.text (about ++ "\n\n" ++ usage ++ "\n")], exit := 0 }
  | .ok (.check i) => runInvocation files e i host

def settingsPaths (arguments : List String) (e : Environment) : List String :=
  match parse arguments e with
  | .ok (.check i) => i.config.toList
  | _ => []

def paths (arguments : List String) (files : Files) (e : Environment) : List String :=
  match parse arguments e with
  | .ok (.check i) =>
    match Settings.load files i.config e with
    | .ok s => i.config.toList ++ (i.grants.or s.authorization.grantsFile).toList ++ [i.operation]
    | .error _ => i.config.toList
  | _ => []

end Clearance.Command
