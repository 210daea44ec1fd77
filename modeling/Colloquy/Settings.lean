import Colloquy.Settings.File
import Colloquy.Settings.Key

/-!
Settings in layers, of which later ones win: a file that is read if it is there, a file that has to
be there, and the environment.
-/

namespace Colloquy

structure Settings where
  indexDirectory : String := "index"
  databasePath : String := "boutinf.db"
  logLevel : String := "info"
  cacheSize : UInt64 := 256
  /-- How many milliseconds a query may take; zero for any number. -/
  timeoutMillis : UInt64 := 0
deriving DecidableEq

namespace Settings

def defaultFile : String := "boutinf"

/-- How names of the environment begin, in letters of either case. -/
def environmentMark : String := "boutinf_"

/-- The setting that a name belongs to and what it makes of it: a name that leads into it makes it
a group. -/
def ofEntry (name : String) (item : Item) : String × Item :=
  match rootOf? name with
  | some root => (root, .group)
  | none => (name, item)

def ofEnvironment (environment : List (String × String)) : Layer :=
  environment.filterMap fun entry =>
    let name := Text.lower entry.1.toList
    let mark := environmentMark.toList
    if mark.isPrefixOf name then
      some (String.ofList (name.drop mark.length), Item.ofEnvironment entry.2)
    else none

def given (layer : Layer) (name : String) : Option Item :=
  -- the layers that win come last
  ((layer.map fun entry => ofEntry entry.1 entry.2).reverse.find? fun entry =>
    entry.1 = name).map Prod.snd

/-- The value of a setting: what the layer gives for it, or else its default. -/
def setting {α : Type} (layer : Layer) (name : String) (take : Item → Option α) (default : α) :
    Except Refusal α :=
  match given layer name with
  | none => .ok default
  | some item =>
    match take item with
    | some value => .ok value
    | none => .error (.unsuitable name)

def ofLayer (layer : Layer) : Except Refusal Settings := do
  let defaults : Settings := {}
  let indexDirectory ← setting layer "index_directory" Item.text? defaults.indexDirectory
  let databasePath ← setting layer "database_path" Item.text? defaults.databasePath
  let logLevel ← setting layer "log_level" Item.text? defaults.logLevel
  let cacheSize ← setting layer "query_cache_size" Item.word? defaults.cacheSize
  let timeoutMillis ← setting layer "query_timeout_ms" Item.word? defaults.timeoutMillis
  .ok { indexDirectory, databasePath, logLevel, cacheSize, timeoutMillis }

/-- The layer of the file that need not be there. One that is there has to be readable. -/
def optionalLayer (d : Disk) (name : String) : Except Refusal Layer :=
  match File.find d name with
  | .error _ => .ok []
  | .ok file => file.read

def requiredLayer (d : Disk) (name : String) : Except Refusal Layer :=
  (File.find d name).bind File.read

/-- The settings of a run: from the files on a disk, one of them named, and the environment. -/
def load (d : Disk) (file : Option String) (environment : List (String × String)) :
    Except Refusal Settings := do
  let first ← optionalLayer d defaultFile
  let second ← match file with
    | none => .ok []
    | some name => requiredLayer d name
  ofLayer (first ++ second ++ ofEnvironment environment)

def timeout (s : Settings) : Option UInt64 :=
  if 0 < s.timeoutMillis then some s.timeoutMillis else none

/-- The same for one query, which may be given a limit of its own; zero lifts it. -/
def budget? (s : Settings) (millis : Option UInt64) : Option UInt64 :=
  match millis with
  | some millis => if 0 < millis then some millis else none
  | none => s.timeout

end Settings

end Colloquy
