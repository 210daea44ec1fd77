/-!
Written paths. Doubled slashes and single dots lead nowhere, except at the end of a path: there they
ask for a directory, and are kept as a mark.
-/

namespace Colloquy

/-- The names that lead to a place, one step after another. A last step without a name, or a single
dot there, is a mark. -/
abbrev Path := List String

namespace Path

def isStep (step : String) : Bool := step ≠ "" && step ≠ "."

def steps (path : Path) : Path := path.filter isStep

/-- The mark at the end of a written path, whose parts between slashes are given from the last to
the first. -/
def markOf : List String → Path
  | "" :: "" :: rest => markOf ("" :: rest)
  | "." :: _ | "" :: "." :: _ => ["."]
  | "" :: _ :: _ => [""]
  | _ => []

def ofString (s : String) : Path :=
  let parts := (s.toList.splitOn '/').map String.ofList
  steps parts ++ markOf parts.reverse

def isMarked (path : Path) : Bool := path.getLast?.any fun step => !isStep step

def parent (path : Path) : Path := (steps path).dropLast

/-- The paths that one comes by after a path, if each step leads on from the one before and double
dots lead back. -/
def stagesFrom (before : Path) : Path → List Path
  | [] => []
  | step :: rest =>
    let next := if step = ".." then before.dropLast else before ++ [step]
    next :: stagesFrom next rest

def stages (path : Path) : List Path := stagesFrom [] path.steps

def straighten (s : String) : String :=
  let straight := "/".intercalate ((ofString s).stages.getLast?.getD [])
  if s.toList.head? = some '/' then "/" ++ straight else straight

/-- A written path continued by another, which starts anew where it begins with a slash. -/
def join (base rest : String) : String :=
  if rest.toList.head? = some '/' then rest
  else if base.isEmpty then rest
  else if base.toList.getLast? = some '/' then base ++ rest
  else base ++ "/" ++ rest

/-- A file name without its extension: without its last dot and what follows, unless it begins
with that dot. -/
def stem (name : String) : String :=
  let reversed := name.toList.reverse
  let before := (reversed.dropWhile (· ≠ '.')).drop 1
  if before.isEmpty then name else String.ofList before.reverse

def byteSize (path : Path) : Nat :=
  path.foldl (fun size step => size + step.utf8ByteSize + 1) 0 - 1

end Path

end Colloquy
