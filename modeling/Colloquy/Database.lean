import Colloquy.Database.Location
import Colloquy.Disk

/-!
The database of messages on a disk. A file that is missing or empty becomes an empty database when
it is opened.
-/

namespace Colloquy

structure Database where
  file : Option Path
  isReadOnly : Bool
  rows : Source.Rows

namespace Database

inductive Refusal where
  | malformed
  | unreachable (fault : Disk.Fault)
  | notADatabase
  | readOnly
deriving DecidableEq

def Refusal.message : Refusal → String
  | malformed => "Message source error: invalid database path"
  | unreachable fault => s!"Message source error: unable to open database file: {fault.message}"
  | notADatabase => "Message source error: file is not a database"
  | readOnly => "Message source error: attempt to write a readonly database"

/-- The most bytes that SQLite makes room for in a path (`MAX_PATHNAME`). -/
def room : Nat := 512

/-- The most bytes that the path of a file may have. The name of its journal is 8 bytes longer. -/
def pathLimit : Nat := room - 8 - Disk.rootSize

/-- The most bytes that a path may have that one comes by, before a zero that ends it. -/
def stageLimit : Nat := room - 1 - Disk.rootSize

/-- Why a path cannot be come by. It must be possible to look it up, whether there is anything there
or not. -/
def stageFault? (d : Disk) (path : Path) : Option Disk.Fault :=
  match d.lookup path with
  | .ok _ | .error .notFound => if stageLimit < path.byteSize then some .nameTooLong else none
  | .error fault => some fault

def pathOf (d : Disk) (name : String) : Except Disk.Fault Path :=
  let stages := (Path.ofString name).stages
  let path := stages.getLast?.getD []
  match stages.findSome? (stageFault? d) with
  | some fault => .error fault
  | none => if pathLimit < path.byteSize then .error .nameTooLong else .ok path

/-- The rows that a file holds. A file of a single byte counts as empty; an empty one is no database
yet. -/
def rowsOf (content : Disk.Content) : Except Refusal (Option Source.Rows) :=
  match content with
  | .database rows => .ok (some rows)
  | .bytes data => if data.length ≤ 1 then .ok none else .error .notADatabase

def save (db : Database) (d : Disk) : Except Refusal Disk :=
  if db.isReadOnly then .error .readOnly
  else
    match db.file with
    | none => .ok d
    | some path => (d.write path (.database db.rows)).mapError .unreachable

def create (file : Option Path) (isReadOnly : Bool) (d : Disk) : Except Refusal Database × Disk :=
  let db : Database := ⟨file, isReadOnly, {}⟩
  match db.save d with
  | .error cause => (.error cause, d)
  | .ok d => (.ok db, d)

def openFile (d : Disk) (path : Path) (access : Access) (isReadOnly : Bool) :
    Except Refusal Database × Disk :=
  match d.lookup path with
  | .ok (.file content) =>
    match rowsOf content with
    | .error cause => (.error cause, d)
    | .ok none => create (some path) isReadOnly d
    | .ok (some rows) => (.ok ⟨some path, isReadOnly, rows⟩, d)
  | .ok .directory => (.error (.unreachable .isADirectory), d)
  | .error .notFound =>
    if access = .creating then
      match d.write path (.bytes []) with
      | .error fault => (.error (.unreachable fault), d)
      -- an empty file is there first, also if the rows cannot be written to it
      | .ok d => create (some path) isReadOnly d
    else (.error (.unreachable .notFound), d)
  | .error fault => (.error (.unreachable fault), d)

/-- Whether the file is there whose rights a new one is to have. -/
def hasModel (d : Disk) (l : Location) : Bool :=
  match l.value? "modeof" with
  | none => true
  | some name => name ≠ "" && (d.lookup (Path.ofString name)).toOption.isSome

def openAt (d : Disk) (written : String) : Except Refusal Database × Disk :=
  match Location.ofString? written with
  | none => (.error .malformed, d)
  | some l =>
    if l.isTransient then create none l.isReadOnly d
    else
      match pathOf d l.name with
      | .error fault => (.error (.unreachable fault), d)
      | .ok path =>
        if hasModel d l then openFile d path l.access l.isReadOnly
        else (.error (.unreachable .notFound), d)

def filesAt (written : String) : List String :=
  match Location.ofString? written with
  | none => []
  | some l =>
    if l.isTransient then []
    else ([Path.straighten l.name, l.name] ++ (l.value? "modeof").toList).eraseDups

end Database

end Colloquy
