import Colloquy.Calendar.Epoch
import Colloquy.CommandLine.Reach
import Colloquy.Database.Encoding
import Std.Time.DateTime.Timestamp

/-!
What a run may reach is copied onto a disk, the run takes place there, and what it has changed is
copied back.
-/

namespace Colloquy.Program

def variableNames : List String :=
  ["BOUTINF_INDEX_DIRECTORY", "BOUTINF_DATABASE_PATH", "BOUTINF_LOG_LEVEL",
    "BOUTINF_QUERY_CACHE_SIZE", "BOUTINF_QUERY_TIMEOUT_MS"]

def readEnvironment : IO (List (String × String)) :=
  variableNames.filterMapM fun name => do return (← IO.getEnv name).map fun value => (name, value)

def readClock : IO Instant := do
  let nanos := (← Std.Time.Timestamp.now).toNanosecondsSinceUnixEpoch.val
  match Instant.ofEpoch? (nanos / 1000000000) (nanos % 1000000000).toNat with
  | some now => return now
  | none => throw (IO.userError "the clock is past the end of the calendar")

/-- What is at a path. What is there but cannot be read as a file counts as a directory. -/
def readNode (name : String) : IO (Option Disk.Node) := do
  try
    return some (.file (Database.contentOf (← IO.FS.readBinFile name).toList))
  catch
    | .noFileOrDirectory _ _ _ => return none
    | _ => return some .directory

/-- Copies what is at a path, and the directories that lead to it. -/
def copyIn (d : Disk) (name : String) : IO Disk := do
  let path := (Path.ofString name).steps
  let start := if name.toList.head? = some '/' then "/" else ""
  let mut d := d
  for k in [0 : path.length] do
    let steps := path.take (k + 1)
    match d.locate steps, ← readNode (start ++ "/".intercalate steps) with
    | .ok (p :: place), some node => d := d.put (p :: place) node
    | _, _ => pure ()
  return d

def writeWhole (name : String) (data : List UInt8) : IO Unit := do
  IO.FS.writeBinFile (name ++ "~") ⟨data.toArray⟩
  IO.FS.rename (name ++ "~") name

def copyOut (before after : Disk) (name : String) : IO Unit := do
  let path := Path.ofString name
  let old := (before.lookup path).toOption
  let new := (after.lookup path).toOption
  if old ≠ new then
    match new with
    | some (.file content) => writeWhole name (Database.bytesOf content)
    | some .directory => IO.FS.createDirAll name
    | none => IO.FS.removeFile name

def run (arguments : List String) : IO UInt32 := do
  let environment ← readEnvironment
  let now ← readClock
  let settings ← (CommandLine.settingsFiles arguments).foldlM copyIn {}
  let files := CommandLine.reachedFiles environment arguments settings
  let before ← files.foldlM copyIn settings
  let (report, after) := CommandLine.run now environment arguments before
  files.forM (copyOut before after)
  IO.print report.printed
  report.complaint.forM IO.eprintln
  return report.exitCode.toUInt32

end Colloquy.Program

def main (arguments : List String) : IO UInt32 := Colloquy.Program.run arguments
