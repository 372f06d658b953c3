import Clearance.Files
import Clearance.Settings.Decode
import Clearance.Settings.Environment

/-!
Loading the settings: the environment is laid over the file, and what neither gives has its default.
-/
namespace Clearance.Settings

inductive LoadError where
  | missing (path : String)
  | notToml (path : String)
  | invalid (p : Problem)

/-- What is wrong with the file of a path that is not TOML, in the words of its reader. -/
def notTomlMessage (words : String → String) (path : String) : String :=
  words path ++ " in " ++ shownPath path ++ " TOML file"

def LoadError.message (e : LoadError) (words : String → String := fun _ => "TOML parse error\n") :
    String :=
  match e with
  | .missing path => "config file not found: " ++ path
  | .notToml path => "failed to load config: " ++ notTomlMessage words path
  | .invalid p => "failed to load config: " ++ p.message

def ofFile (files : Files) (path : String) : Except LoadError Tree := do
  if !files.isFile path then .error (.missing path)
  let entries := (files.readText path).toOption.bind Toml.parse
  match entries.bind (Tree.ofDocument (.file path)) with
  | some t => .ok t
  | none => .error (.notToml path)

def load (files : Files) (path : Option String) (e : Environment) : Except LoadError Settings := do
  let below ← match path with
    | some path => ofFile files path
    | none => .ok (.table .environment [])
  (Decoder.settings.decode (below.overlay (ofEnvironment e))).mapError .invalid

end Clearance.Settings
