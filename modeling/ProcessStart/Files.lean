import ProcessStart.Text.Numeral
import ProcessStart.Text.Split
import ProcessStart.Text.Utf8

/-!
A tree of files, and what reading and writing it can fail of. A path is walked
name by name, and every step has to start in a directory. Opening for writing
makes a file that is not there, but no directory, and a path that ends with a
slash can only be a directory.
-/
namespace ProcessStart

abbrev Name := List UInt8

/-- What stands under a place of the tree. -/
inductive Node where
  | file (content : List UInt8)
  | directory
  deriving DecidableEq, Repr

/-- Places are lists of names from the root on; the root is a directory. A path that does not
begin with a slash is walked from the working directory. -/
structure Files where
  nodes : List (List Name × Node)
  workingDirectory : List Name
  deriving DecidableEq, Repr

inductive FileError where
  | notFound
  | notADirectory
  | isADirectory
  | nameTooLong
  | zeroInPath
  | notText
  | other (description : String)
  deriving DecidableEq, Repr

namespace FileError

/-- The system's number, if the system reports the error. -/
def number? : FileError → Option Nat
  | .notFound => some 2
  | .notADirectory => some 20
  | .isADirectory => some 21
  | .nameTooLong => some 36
  | .zeroInPath => none
  | .notText => none
  | .other _ => none

def kind : FileError → String
  | .notFound => "NotFound"
  | .notADirectory => "NotADirectory"
  | .isADirectory => "IsADirectory"
  | .nameTooLong => "InvalidFilename"
  | .zeroInPath => "InvalidInput"
  | .notText => "InvalidData"
  | .other _ => "Other"

def description : FileError → String
  | .notFound => "No such file or directory"
  | .notADirectory => "Not a directory"
  | .isADirectory => "Is a directory"
  | .nameTooLong => "File name too long"
  | .zeroInPath => "file name contained an unexpected NUL byte"
  | .notText => "stream did not contain valid UTF-8"
  | .other description => description

def message (e : FileError) : String :=
  match e.number? with
  | none => e.description
  | some n => e.description ++ " (os error " ++ String.ofList (Text.decimal n) ++ ")"

end FileError

namespace Files

def empty : Files := ⟨[], []⟩

def at? (t : Files) (place : List Name) : Option Node :=
  if place.isEmpty then some .directory else t.nodes.lookup place

def put (t : Files) (place : List Name) (node : Node) : Files :=
  { t with nodes := (place, node) :: t.nodes.filter fun other => other.1 != place }

def dot : Name := [0x2e]

def dotDot : Name := [0x2e, 0x2e]

def nameLimit : Nat := 255

/-- The place that a name leads to. -/
def step (t : Files) (place : List Name) (name : Name) : Except FileError (List Name) :=
  match t.at? place with
  | none => .error .notFound
  | some (.file _) => .error .notADirectory
  | some .directory =>
    if name = [] ∨ name = dot then .ok place
    else if name = dotDot then .ok place.dropLast
    else if nameLimit < name.length then .error .nameTooLong
    else .ok (place ++ [name])

def walk (t : Files) (place : List Name) : List Name → Except FileError (List Name)
  | [] => .ok place
  | name :: names => do t.walk (← t.step place name) names

/-- The names between the slashes, as many as there are slashes and one more. -/
def names : List UInt8 → List Name
  | [] => [[]]
  | b :: path =>
    if b = 0x2f then [] :: names path
    else
      match names path with
      | [] => [[b]]
      | name :: rest => (b :: name) :: rest

def origin (t : Files) (path : List UInt8) : List Name :=
  if path.head? = some 0x2f then [] else t.workingDirectory

/-- Paths that are refused before the walk. -/
def checkPath (path : List UInt8) : Except FileError Unit :=
  if path.contains 0 then .error .zeroInPath
  else if path.isEmpty then .error .notFound
  else if 4096 ≤ path.length then .error .nameTooLong
  else .ok ()

def read (t : Files) (path : List UInt8) : Except FileError (List UInt8) := do
  checkPath path
  match t.at? (← t.walk (t.origin path) (names path)) with
  | none => .error .notFound
  | some .directory => .error .isADirectory
  | some (.file content) => .ok content

/-- The content of a file that has to be text. -/
def readText (t : Files) (path : List UInt8) : Except FileError (List Char) := do
  match Text.utf8Decode? (← t.read path) with
  | none => .error .notText
  | some s => .ok s

/-- The last name of a path, with what stands before it; slashes at the end do not count. -/
def splitLast (path : List UInt8) : List Name × Option Name :=
  match ((names path).reverse.dropWhile List.isEmpty) with
  | [] => ([], none)
  | last :: before => (before.reverse, some last)

/-- The place of a file that may be written, and its content so far. -/
def openForWriting (t : Files) (path : List UInt8) : Except FileError (List Name × List UInt8) := do
  checkPath path
  match splitLast path with
  | (_, none) => .error .isADirectory
  | (before, some last) =>
    let parent ← t.walk (t.origin path) before
    let place ← t.step parent (if path.getLast? = some 0x2f then dot else last)
    if path.getLast? = some 0x2f ∨ last = dot ∨ last = dotDot then .error .isADirectory
    else
      match t.at? place with
      | some .directory => .error .isADirectory
      | some (.file content) => .ok (place, content)
      | none => .ok (place, [])

def append (t : Files) (path : List UInt8) (bytes : List UInt8) : Except FileError Files := do
  let (place, content) ← t.openForWriting path
  .ok (t.put place (.file (content ++ bytes)))

def write (t : Files) (path : List UInt8) (bytes : List UInt8) : Except FileError Files := do
  let (place, _) ← t.openForWriting path
  .ok (t.put place (.file bytes))

end Files
end ProcessStart
