/-
  Looking up files.

  1. `FileFault`: why a file cannot be read;
  2. `Directory`: a directory of nothing but files, and what a path from it leads to.
-/
import DocQuery.Fields
import DocQuery.Text.Blank

namespace DocQuery

/-! ## Faults -/

/-- Why a file cannot be read. -/
inductive FileFault where
  | notFound
  /-- the path goes on behind a file -/
  | notDirectory
  | isDirectory
  | nameTooLong
  /-- the path holds a zero character, which no name can -/
  | zeroCharacter
  /-- any other cause, in the words of the system -/
  | other (cause : String)
deriving DecidableEq, Repr

namespace FileFault

def message : FileFault → String
  | notFound => "No such file or directory (os error 2)"
  | notDirectory => "Not a directory (os error 20)"
  | isDirectory => "Is a directory (os error 21)"
  | nameTooLong => "File name too long (os error 36)"
  | zeroCharacter => "file name contained an unexpected NUL byte"
  | other cause => cause

/-- Whether there is something under the name for all that. -/
def isPresent : FileFault → Bool
  | isDirectory | other _ => true
  | _ => false

end FileFault

/-! ## Directories -/

/-- A working directory that holds files by name and no other directory. -/
structure Directory where
  files : Fields String

/-- Bytes that a name may have. -/
def longestName : Nat := 255

/-- Bytes that a path may have. -/
def longestPath : Nat := 4095

/-- Where a path has led to. -/
inductive Place where
  /-- the working directory -/
  | inside
  /-- a directory around it, of which no file is known -/
  | around
  | file (content : String)

namespace Directory

/-- One name further along a path.  An empty name stays where it is. -/
def step (d : Directory) (name : String) : Place → Except FileFault Place
  | .file _ => .error .notDirectory
  | place =>
    if name = "" ∨ name = "." then .ok place
    else if name = ".." then .ok .around
    else if longestName < name.utf8ByteSize then .error .nameTooLong
    else
      match place, d.files.get? name with
      | .inside, some content => .ok (.file content)
      | _, _ => .error .notFound

/-- The content of the file that a path leads to. -/
def read (d : Directory) (path : String) : Except FileFault String := do
  if path.toList.contains '\x00' then .error .zeroCharacter
  else if path = "" then .error .notFound
  else if longestPath < path.utf8ByteSize then .error .nameTooLong
  else do
    let start := if path.toList.head? = some '/' then Place.around else Place.inside
    match ← (Text.split (· == '/') path).foldlM (fun place name => d.step name place) start with
    | .file content => .ok content
    | _ => .error .isDirectory

example : (read ⟨[("a", "x")]⟩ "./a").toOption = some "x" ∧
    (read ⟨[("a", "x")]⟩ "a/").toOption = none := by
  decide +kernel

end Directory

end DocQuery
