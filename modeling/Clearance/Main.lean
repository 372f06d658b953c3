import Clearance.Command.Run
import Mathlib.Init

/-! The program: it reads what a run needs and prints what the run gives. -/
namespace Clearance

/-- The system's code of a path that goes through a file comes with a sign or without. -/
def fault : IO.Error → ReadFault
  | .inappropriateType _ code _ =>
    if code = 20 ∨ code = 0 - 20 then .notDirectory else .isDirectory
  | .invalidArgument .. => .nameTooLong
  | _ => .missing

def read (path : String) : IO (Except ReadFault ByteArray) := do
  if let some found := Files.pathFault? path then return .error found
  try
    return .ok (← IO.FS.readBinFile path)
  catch e =>
    return .error (fault e)

def readAll (paths : List String) : IO Files := do
  let found ← paths.mapM fun path => return (path, ← read path)
  return fun path => (found.lookup path).getD (.error .missing)

/-- The variables of the process, from the text in which the system keeps them. -/
def readEnvironment : IO Environment := do
  match ← read "/proc/self/environ" with
  | .error _ => return {}
  | .ok bytes =>
    let entries := ((String.fromUTF8? bytes).getD "").splitOn "\x00"
    return .ofList (entries.filterMap fun entry =>
      match entry.toList.span (· != '=') with
      | (name, '=' :: value) => some (String.ofList name, String.ofList value)
      | _ => none)

/-- The time in UTC, to the microsecond. -/
def clock : IO String := do
  let t := Std.Time.DateTime.ofTimestamp (← Std.Time.Timestamp.now) .UTC
  return t.format "uuuu-MM-dd" ++ "T" ++ t.format "HH:mm:ss.SSSSSS" ++ "Z"

end Clearance

open Clearance in
def main (arguments : List String) : IO UInt32 := do
  let e ← readEnvironment
  let files ← readAll (Command.paths arguments (← readAll (Command.settingsPaths arguments e)) e)
  let t := Command.run arguments files e
  let output ← IO.getStdout
  for item in t.output do
    output.putStr (item.print t.format (← clock))
  for line in t.errors do
    IO.eprintln line
  return UInt32.ofNat t.exit
