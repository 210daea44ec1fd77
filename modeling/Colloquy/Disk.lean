import Colloquy.Disk.Content
import Colloquy.Disk.Fault
import Colloquy.Disk.Path

/-!
A tree of directories and files. It lists every place but the root with what is there; a place is
the list of the names that lead there.
-/

namespace Colloquy

inductive Disk.Node where
  | directory
  | file (content : Disk.Content)
deriving DecidableEq

structure Disk where
  nodes : List (Path × Disk.Node) := []
  /-- The places that cannot be written. -/
  locked : List Path := []
deriving DecidableEq

namespace Disk

def node? (d : Disk) (place : Path) : Option Node :=
  -- the root is not among the nodes and cannot be taken away
  if place.isEmpty then some .directory
  else (d.nodes.find? fun entry => entry.1 = place).map Prod.snd

def put (d : Disk) (place : Path) (node : Node) : Disk :=
  { d with nodes := (place, node) :: d.nodes.filter fun entry => entry.1 ≠ place }

def clear (d : Disk) (place : Path) : Disk :=
  { d with nodes := d.nodes.filter fun entry => entry.1 ≠ place }

/-- The most bytes that a name may have (`NAME_MAX` of Linux). -/
def nameLimit : Nat := 255

/-- A disk is what lies under one directory of a machine. So many bytes come before each of its
paths: 15 for the path of that directory, and one for the slash after it. -/
def rootSize : Nat := 16

/-- The most bytes that a path may have: `PATH_MAX` of Linux is 4096, with what comes before the
path and a zero that ends it. -/
def pathLimit : Nat := 4096 - 1 - rootSize

def pathFault? (path : Path) : Option Fault :=
  if path.any fun step => '\x00' ∈ step.toList then some .nulInName
  else if pathLimit < path.byteSize then some .nameTooLong
  else none

def enter (d : Disk) (place : Path) : Path → Except Fault Path
  | [] => .ok place
  | step :: rest =>
    -- an empty step and a single dot stay where they are
    if !Path.isStep step then enter d place rest
    else if step = ".." then enter d place.dropLast rest
    else if nameLimit < step.utf8ByteSize then .error .nameTooLong
    else match d.node? (place ++ [step]) with
      | none => .error .notFound
      | some (.file _) => .error .notADirectory
      | some .directory => enter d (place ++ [step]) rest

/-- The place that steps lead to; all but the last step have to be directories, and all of them
where the last is a mark. -/
def locateSteps (d : Disk) (path : Path) : Except Fault Path :=
  match path.getLast? with
  | none => .ok []
  | some last =>
    match d.enter [] path.dropLast with
    | .error fault => .error fault
    | .ok place =>
      if !Path.isStep last then .ok place
      else if last = ".." then .ok place.dropLast
      else if nameLimit < last.utf8ByteSize then .error .nameTooLong
      else .ok (place ++ [last])

def locate (d : Disk) (path : Path) : Except Fault Path :=
  match pathFault? path with
  | some fault => .error fault
  | none => d.locateSteps path

def lookup (d : Disk) (path : Path) : Except Fault Node :=
  match d.locate path with
  | .error fault => .error fault
  | .ok place => match d.node? place with
    | none => .error .notFound
    | some node => .ok node

def read (d : Disk) (path : Path) : Except Fault Content :=
  match d.lookup path with
  | .error fault => .error fault
  | .ok .directory => .error .isADirectory
  | .ok (.file content) => .ok content

/-- Writes a file, which is made if it is not there. -/
def write (d : Disk) (path : Path) (content : Content) : Except Fault Disk :=
  match d.locate path with
  | .error fault => .error fault
  | .ok place =>
    if d.node? place = some .directory then .error .isADirectory
    else if place ∈ d.locked then .error .notPermitted
    else .ok (d.put place (.file content))

/-- The place that a file may be moved to. A mark at the end of the path asks for a directory, which
no file can take the place of. -/
def locateTarget (d : Disk) (path : Path) : Except Fault Path :=
  if path.getLast? = some "" then
    match d.locate path.dropLast with
    | .error fault => .error fault
    | .ok _ => .error .notADirectory
  else
    match d.locate path with
    | .error fault => .error fault
    | .ok place => if path.isMarked then .error .busy else .ok place

/-- Moves a file to another path, over the file that is there. -/
def rename (d : Disk) (source target : Path) : Except Fault Disk :=
  -- what is moved is looked for before the place that it goes to
  match d.read source, d.locate source, d.locateTarget target with
  | .error fault, _, _ => .error fault
  | _, .error fault, _ => .error fault
  | _, _, .error fault => .error fault
  | .ok content, .ok place, .ok goal =>
    if d.node? goal = some .directory then .error .isADirectory
    else if goal ∈ d.locked then .error .notPermitted
    -- in one step: in between the goal is never without a file that was there
    else .ok ((d.clear place).put goal (.file content))

/-- Walks along a path from a directory and makes the directories that are missing. What was made
before a step that fails stays. -/
def createFrom (d : Disk) (place : Path) : Path → Except Fault Unit × Disk
  | [] => (.ok (), d)
  | step :: rest =>
    if step = ".." then createFrom d place.dropLast rest
    else if nameLimit < step.utf8ByteSize then (.error .nameTooLong, d)
    else match d.node? (place ++ [step]) with
      | some .directory => createFrom d (place ++ [step]) rest
      | some (.file _) => (.error (if rest.isEmpty then .alreadyExists else .notADirectory), d)
      | none => createFrom (d.put (place ++ [step]) .directory) (place ++ [step]) rest

/-- Makes a directory and those that lead to it. A directory before a single dot at the end has to
be there already, or else only those that lead to it are made. -/
def createDirectories (d : Disk) (path : Path) : Except Fault Unit × Disk :=
  match pathFault? path with
  | some fault => (.error fault, d)
  | none =>
    if path.getLast? = some "." then
      match d.enter [] path with
      | .ok _ => (.ok (), d)
      | .error .notFound =>
        -- the directory itself is not among those that lead to it, so it may still be missing
        match d.createFrom [] path.parent with
        | (.error fault, d) => (.error fault, d)
        | (.ok _, d) => ((d.enter [] path).map fun _ => (), d)
      | .error fault => (.error fault, d)
    else d.createFrom [] path.steps

def list? (d : Disk) (path : Path) : Option (List String) :=
  match d.locate path with
  | .error _ => none
  | .ok place =>
    if d.node? place = some .directory then
      let inside := d.nodes.filterMap fun entry =>
        if entry.1.dropLast = place then entry.1.getLast? else none
      some (inside.mergeSort fun a b => decide (a ≤ b))
    else none

/-- Whether a path names its last place by dots, by which a directory cannot be taken away. -/
def endsInDots (path : Path) : Bool :=
  path.getLast? = some "." || path.steps.getLast? = some ".."

/-- Takes away a file, or a directory with all that is in it, and tells whether it did. A directory
that is named by dots loses what is in it but stays. -/
def remove (d : Disk) (path : Path) : Bool × Disk :=
  match d.locate path with
  | .error _ => (false, d)
  | .ok place =>
    let stays := endsInDots path
    let goes (entry : Path × Node) : Bool :=
      place.isPrefixOf entry.1 && !(stays && entry.1 == place)
    ((d.node? place).isSome && !stays, { d with nodes := d.nodes.filter fun entry => !goes entry })

/-- The length of what is at a path in bytes; zero where nothing can be reached. -/
def size (d : Disk) (path : Path) : Nat :=
  match d.lookup path with
  | .ok (.file content) => content.data.length
  | .ok .directory => 4096
  | .error _ => 0

end Disk

end Colloquy
