import Colloquy.CommandLine

/-!
Which files a run may read or write.
-/

namespace Colloquy.CommandLine

def Command.attributes : Command → List String
  | post _ _ _ _ => Message.indexed
  | query _ written _ =>
    match Query.parse written with
    | .ok p => p.attributes
    | .error _ => []
  | join _ _ | stats => []

def settingsFiles (arguments : List String) : List String :=
  match Request.ofArguments arguments with
  | .ok (.run file _ _) =>
    (Settings.defaultFile :: file.toList).flatMap Settings.File.candidates
  | _ => []

/-- The files that a command may read or write, with the directory of the indexes. -/
def filesOf (settings : Settings) (command : Command) : List String :=
  let index (name : String) : List String :=
    let file := Path.join settings.indexDirectory (Index.fileName name)
    [file, file ++ ".tmp"]
  Database.filesAt settings.databasePath ++
    settings.indexDirectory :: command.attributes.flatMap index

/-- The files that a run may read or write once its settings are known from a disk. -/
def reachedFiles (environment : List (String × String)) (arguments : List String) (d : Disk) :
    List String :=
  match Request.ofArguments arguments with
  | .ok (.run file _ command) =>
    match Settings.load d file environment with
    | .ok settings => filesOf settings command
    | .error _ => []
  | _ => []

end Colloquy.CommandLine
