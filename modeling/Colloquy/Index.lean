import Colloquy.Disk
import Colloquy.Index.Encoding
import Colloquy.Keyed

/-!
An index of one attribute, by message, and whether it has changed since it was last in step with its
file.
-/

namespace Colloquy

structure Index where
  entries : List Index.Entry
  dirty : Bool
deriving DecidableEq

namespace Index

/-- Names of ASCII letters, digits, dots, underscores and hyphens that do not begin with a dot. -/
def isName (name : String) : Bool :=
  match name.toList with
  | [] => false
  | c :: rest => c ≠ '.' && (c :: rest).all Query.isVariableChar

def fileName (name : String) : String := name ++ ".idx"

/-- The path that a file is written to before it takes its place. Where the stem of its name is a
single dot that is the path of a directory, which cannot be written. -/
def stagingPath (path : Path) (last : String) : Path :=
  if last = ".." then path.steps
  else if Path.stem last = "." && !path.isMarked then path.parent ++ [".."]
  else path.parent ++ [Path.stem last ++ ".idx.tmp"]

def replace (d : Disk) (path : Path) (last : String) (bytes : List UInt8) :
    Except Disk.Fault Unit × Disk :=
  match d.write (stagingPath path last) (.bytes bytes) with
  | .error fault => (.error fault, d)
  | .ok staged =>
    match staged.rename (stagingPath path last) path with
    | .error fault => (.error fault, staged)
    | .ok replaced => (.ok (), replaced)

/-- Writes the file of an index in two steps, so that a whole file is at the path at any time. -/
def writeAt (d : Disk) (path : Path) (name : String) (entries : List Entry) :
    Except Disk.Fault Unit × Disk :=
  match d.createDirectories path.parent, path.steps.getLast? with
  | (.error fault, d), _ => (.error fault, d)
  | (.ok _, d), none => (.error (if path.isMarked then .busy else .notADirectory), d)
  | (.ok _, d), some last => replace d path last (encode name entries)

/-- The entries in the file at a path, in its order; none where there is no file. -/
def readAt (d : Disk) (path : Path) (name : String) : Except Error (Option (List Entry)) :=
  match d.read path with
  | .error .notFound => .ok none
  | .error fault => .error (.disk fault)
  | .ok content =>
    match decode name content.data with
    | .error cause => .error (.corrupted name cause)
    | .ok entries => .ok (some entries)

def load (d : Disk) (path : Path) (name : String) : Except Error Index :=
  (readAt d path name).map fun entries => ⟨Keyed.insertAll (entries.getD []) [], false⟩

def get? (i : Index) (message : UInt64) : Option Value := Keyed.find? message i.entries

/-- Puts a value; the last one put for a message stays. -/
def put (i : Index) (message : UInt64) (value : Value) : Index :=
  ⟨Keyed.insert message value i.entries, true⟩

def size (i : Index) : Nat := i.entries.length

end Index

end Colloquy
