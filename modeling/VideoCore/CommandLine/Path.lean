import VideoCore.Text.Quoted

namespace VideoCore

/-!
# File paths

Paths are written in a normal form: without empty and `.` parts, and with one
leading slash at most, except that exactly two are kept.
-/

namespace FilePath

/-- The parts of a path that count. -/
def parts (path : String) : List String :=
  (path.splitOn "/").filter fun part => part ≠ "" ∧ part ≠ "."

/-- The slashes that an absolute path begins with. -/
def root (path : String) : String :=
  match path.toList with
  | '/' :: '/' :: '/' :: _ => "/"
  | '/' :: '/' :: _ => "//"
  | '/' :: _ => "/"
  | _ => ""

/-- The normal form of a path; a path without parts is a point. -/
def normalize (path : String) : String :=
  let text := root path ++ "/".intercalate (parts path)
  if text = "" then "." else text

/-- Whether a path can name a file: a null character ends a name. -/
def isUsable (path : String) : Bool :=
  !path.contains '\x00'

end FilePath

/-- Why a file cannot be read. -/
inductive FileFault
  | missing
  | denied
  | directory
  /-- A part of the path that has to be a folder is none. -/
  | folderless
  /-- Any other reason, with its number and its text. -/
  | other (number : Nat) (reason : String)
deriving DecidableEq

namespace FileFault

/-- The number of the reason. -/
def number : FileFault → Nat
  | .missing => 2
  | .denied => 13
  | .directory => 21
  | .folderless => 20
  | .other number _ => number

/-- The reason in words. -/
def reason : FileFault → String
  | .missing => "No such file or directory"
  | .denied => "Permission denied"
  | .directory => "Is a directory"
  | .folderless => "Not a directory"
  | .other _ reason => reason

/-- What the user is told. -/
def message
    (fault : FileFault)
    (path : String) : String :=
  "[Errno " ++ toString fault.number ++ "] " ++ fault.reason ++ ": " ++
    Quoted.text path

end FileFault

end VideoCore
