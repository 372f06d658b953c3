/-!
Files below the working directory, as the program finds them when it reads by path. There are plain files
and directories, all of them open to be read, and the device that is always empty; other devices, pipes
and permissions are left out.
-/
namespace Clearance

/-- Why a path cannot be read. That it is forbidden is not among the reasons. -/
inductive ReadFault where
  | missing
  | isDirectory
  | notDirectory
  | nameTooLong
  | zeroInName
  | notText
deriving DecidableEq, Repr

def ReadFault.message : ReadFault → String
  | .missing => "No such file or directory (os error 2)"
  | .isDirectory => "Is a directory (os error 21)"
  | .notDirectory => "Not a directory (os error 20)"
  | .nameTooLong => "File name too long (os error 36)"
  | .zeroInName => "file name contained an unexpected NUL byte"
  | .notText => "stream did not contain valid UTF-8"

/-- What is found under a path: the bytes that are read from it, or why there are none. -/
abbrev Files := String → Except ReadFault ByteArray

namespace Files

/-- The names on a path. Empty ones and those of a single point lead nowhere else. -/
def names (path : String) : List String :=
  (path.splitOn "/").filter fun n => n != "" && n != "."

/-- The device that is always empty. It can be read, but it is not a file. -/
def isEmptyDevice (path : String) : Bool := path.startsWith "/" && names path == ["dev", "null"]

/-- Whatever can be read is a plain file, but for the device that is always empty. -/
def isFile (f : Files) (path : String) : Bool := (f path).isOk && !isEmptyDevice path

def readText (f : Files) (path : String) : Except ReadFault String := do
  match String.fromUTF8? (← f path) with
  | some t => .ok t
  | none => .error .notText

def nameLimit : Nat := 255

def pathLimit : Nat := 4096

def pathFault? (path : String) : Option ReadFault :=
  if path.contains '\x00' then some .zeroInName
  else if path.isEmpty then some .missing
  else if pathLimit ≤ path.utf8ByteSize then some .nameTooLong
  else none

inductive Place where
  | file (bytes : ByteArray)
  | directory (name : List String)
  | outside

def isBelow (directory name : List String) : Bool :=
  directory.length < name.length && directory.isPrefixOf name

def place? (files : List (List String × ByteArray)) (name : List String) : Option Place :=
  match files.lookup name with
  | some bytes => some (.file bytes)
  | none =>
    if name.isEmpty || files.any (fun f => isBelow name f.1) then some (.directory name) else none

/-- One name on a path. Outside of the working directory only the directories above it are found. -/
def enter (files : List (List String × ByteArray)) (here : Place) (name : String) :
    Except ReadFault Place :=
  match here with
  | .file _ => .error .notDirectory
  | .outside =>
    if name = ".." then .ok .outside
    else .error (if nameLimit < name.utf8ByteSize then .nameTooLong else .missing)
  | .directory above =>
    if name = ".." then .ok (if above.isEmpty then .outside else .directory above.dropLast)
    else if nameLimit < name.utf8ByteSize then .error .nameTooLong
    else
      match place? files (above ++ [name]) with
      | some p => .ok p
      | none => .error .missing

/-- The files of given names, and the directories that the names lead through. A path that ends in a
slash or a point is one of a directory. -/
def ofList (files : List (String × ByteArray)) : Files := fun path => do
  if let some fault := pathFault? path then .error fault
  if isEmptyDevice path then return .empty
  let files := files.map fun (n, bytes) => (names n, bytes)
  let start : Place := if path.startsWith "/" then .outside else .directory []
  match ← (names path).foldlM (enter files) start with
  | .file bytes =>
    if path.endsWith "/" || path.endsWith "/." then .error .notDirectory else .ok bytes
  | .directory _ | .outside => .error .isDirectory

end Files
end Clearance
