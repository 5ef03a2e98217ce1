import MiniLex.Source.Reads
import MiniLex.Text.Parts

/-!
# Folders

The files that a program finds where it runs, and what comes of opening a path among them.

- `Folder`: a folder of named files.
- `Folder.walk`: where a path leads to.
- `Folder.open?`: what opening a path comes to.
-/

namespace MiniLex

/-- A folder of named files, with their contents. -/
structure Folder where
  files : List (String × List UInt8)
deriving DecidableEq

namespace Folder

/-! ## Reasons -/

/-- No file has the name. -/
def notFound : String := "No such file or directory (os error 2)"

/-- A path goes on after a file. -/
def notAFolder : String := "Not a directory (os error 20)"

/-- Bytes are asked for from a folder. -/
def isAFolder : String := "Is a directory (os error 21)"

/-- A name or a path has more bytes than the system takes. -/
def nameTooLong : String := "File name too long (os error 36)"

/-- A path holds the character that would end it for the system. -/
def unexpectedNull : String := "file name contained an unexpected NUL byte"

/-! ## Paths -/

/-- Where a part of a path leads to. -/
inductive Spot where
  /-- The folder itself. -/
  | here
  /-- Another folder, of which nothing is known. -/
  | elsewhere
  /-- A file with these contents. -/
  | file (bytes : List UInt8)
deriving DecidableEq

/-- Where a name leads to from a folder that is `here` or not. -/
def enter (f : Folder) (atHome : Bool) (name : String) : Except String Spot :=
  if name = "" ∨ name = "." then .ok (if atHome then .here else .elsewhere)
  else if name = ".." then .ok .elsewhere
  else if 255 < name.utf8ByteSize then .error nameTooLong
  else
    match if atHome then f.files.lookup name else none with
    | some bytes => .ok (.file bytes)
    | none => .error notFound

/-- Where the parts of a path lead to, one after another. -/
def walk (f : Folder) : Spot → List (List Char) → Except String Spot
  | spot, [] => .ok spot
  | .file _, _ :: _ => .error notAFolder
  | .here, name :: names =>
    match f.enter true (String.ofList name) with
    | .error reason => .error reason
    | .ok spot => f.walk spot names
  | .elsewhere, name :: names =>
    match f.enter false (String.ofList name) with
    | .error reason => .error reason
    | .ok spot => f.walk spot names

/-- What opening a path from the folder comes to. A folder can be opened but not read. -/
def open? (f : Folder) (path : String) : Opened :=
  if path = "" then .error notFound
  else if path.toList.contains '\x00' then .error unexpectedNull
  else if 4096 ≤ path.utf8ByteSize then .error nameTooLong
  else
    let start := if path.toList.head? = some '/' then Spot.elsewhere else .here
    match f.walk start (parts '/' path.toList) with
    | .error reason => .error reason
    | .ok (.file bytes) => .ok [.chunk bytes]
    | .ok _ => .ok [.failed isAFolder]

end Folder

end MiniLex
