import Colloquy.CommandLine.Request
import Colloquy.Database
import Colloquy.Engine
import Colloquy.Settings

/-!
One run of the program. What was put into indexes is flushed also when the command fails.
-/

namespace Colloquy.CommandLine

inductive Failure where
  | settings (cause : Settings.Refusal)
  | database (cause : Database.Refusal)
  | error (cause : Error)
deriving DecidableEq

def Failure.message : Failure → String
  | settings cause => s!"Config error: {cause.message}"
  | database cause => cause.message
  | error cause => cause.message

structure Workspace where
  engine : Engine
  database : Database

namespace Workspace

def store (w : Workspace) : Store := w.engine.store

def source (w : Workspace) : Source := w.database.rows.toSource

def withStore (w : Workspace) (store : Store) : Workspace :=
  { w with engine := { w.engine with store } }

def openAt (d : Disk) (s : Settings) : Except Failure Workspace × Disk :=
  match Store.openAt d s.indexDirectory with
  | (.error e, d) => (.error (.error e), d)
  | (.ok store, d) =>
    match Database.openAt d s.databasePath with
    | (.error cause, d) => (.error (.database cause), d)
    | (.ok database, d) =>
      -- the store goes on with the disk on which the database may have been made
      let engine : Engine := ⟨{ store with disk := d }, { limit := s.cacheSize.toNat }⟩
      (.ok ⟨engine, database⟩, d)

def updateRows (w : Workspace) (change : Source.Rows → Except Error Source.Rows) :
    Except Failure Workspace :=
  match change w.database.rows with
  | .error e => .error (.error e)
  | .ok rows =>
    let database := { w.database with rows }
    match database.save w.store.disk with
    | .error cause => .error (.database cause)
    | .ok disk => .ok { w.withStore { w.store with disk } with database }

def post (w : Workspace) (m : Message) : Except Failure Unit × Workspace :=
  match w.updateRows fun rows => rows.post m with
  | .error failure => (.error failure, w)
  | .ok w =>
    -- the row is saved by now and stays, also if an index cannot be had
    let (outcome, store) := w.store.indexMessage m
    (outcome.mapError .error, w.withStore store)

def join (w : Workspace) (bout : UInt64) (identity : String) : Except Failure Unit × Workspace :=
  match w.updateRows fun rows => rows.join bout identity with
  | .error failure => (.error failure, w)
  | .ok w => (.ok (), w)

/-- The messages of a bout that a query accepts. Whether the bout can be asked for is settled before
the query is read. Where the budget of the query is spent its outcome is dropped, and it goes on
until it finds so before a candidate. -/
def query (w : Workspace) (now : Instant) (spent : Option (Nat → Bool)) (bout : UInt64)
    (query : String) : Except Failure (List Message) × Workspace :=
  match w.source.messages bout with
  | .error e => (.error (.error e), w)
  | .ok candidates =>
    let token := spent.getD fun _ => false
    let (outcome, engine) :=
      w.engine.selectWhile w.source now token query Message.number candidates
    let outcome := if spent.isSome then .error .timeout else outcome
    (outcome.mapError .error, { w with engine })

end Workspace

def lines (texts : List String) : String := String.join (texts.map (· ++ "\n"))

def messageLine (m : Message) : String :=
  s!"#{m.number} {String.ofList (Timestamp.display m.date)} {m.author}: {m.text}"

/-- Carries out a command: what is printed, and what it leaves. Where the budget is spent matters to
queries that have one. -/
def Command.execute (now : Instant) (settings : Settings) (spent : Option (Nat → Bool))
    (w : Workspace) : Command → Except Failure String × Workspace
  | post bout number author text =>
    let (outcome, w) := w.post ⟨number, bout, author, text, now⟩
    (outcome.map fun _ => "", w)
  | join bout identity =>
    let (outcome, w) := w.join bout identity
    (outcome.map fun _ => "", w)
  | query bout written millis =>
    let spent := (settings.budget? millis).bind fun _ => spent
    let (outcome, w) := w.query now spent bout written
    (outcome.map fun messages => lines (messages.map messageLine), w)
  | stats => (.ok (lines (w.store.statistics w.store.directory)), w)

structure Report where
  printed : String := ""
  complaint : Option String := none
  exitCode : Nat := 0
deriving DecidableEq

namespace Report

def failed (printed : String) (failure : Failure) : Report := ⟨printed, some failure.message, 1⟩

def misused (misuse : Misuse) : Report := ⟨"", some s!"error: {misuse.message}", 2⟩

end Report

/-- Carries out a command in the store and the database that settings name. The store is flushed
when a query whose budget was spent has stopped. -/
def runCommand (now : Instant) (settings : Settings) (command : Command) (d : Disk)
    (spent : Option (Nat → Bool) := none) : Report × Disk :=
  match Workspace.openAt d settings with
  | (.error failure, d) => (.failed "" failure, d)
  | (.ok w, _) =>
    let (outcome, w) := command.execute now settings spent w
    let (flushed, store) := w.store.flushAll
    -- a failure of the command hides one of the flush
    let report : Report :=
      match outcome, flushed with
      | .error failure, _ => .failed "" failure
      | .ok printed, .error e => .failed printed (.error e)
      | .ok printed, .ok _ => { printed }
    (report, store.disk)

def helpText : String := lines [
  "Index and query the messages of bouts",
  "",
  "Usage: boutinf [OPTIONS] <COMMAND>",
  "",
  "Commands:",
  "  post   Post a message to a bout and index it",
  "  join   Add a participant to a bout",
  "  query  Print the messages of a bout accepted by a query, newest first",
  "  stats  Describe the materialized indexes",
  "  help   Print this message or the help of the given subcommand(s)",
  "",
  "Options:",
  "  -c, --config <CONFIG>        Config file to read on top of the defaults and boutinf.toml",
  "  -l, --log-level <LOG_LEVEL>  Log level (trace, debug, info, warn, error)",
  "  -h, --help                   Print help",
  "  -V, --version                Print version"]

def versionText : String := lines ["boutinf 0.1.0"]

def run (now : Instant) (environment : List (String × String)) (arguments : List String)
    (d : Disk) (spent : Option (Nat → Bool) := none) : Report × Disk :=
  match Request.ofArguments arguments with
  | .error misuse => (.misused misuse, d)
  | .ok .help => ({ printed := helpText }, d)
  | .ok .version => ({ printed := versionText }, d)
  | .ok (.run settingsFile _ command) =>
    match Settings.load d settingsFile environment with
    | .error cause => (.failed "" (.settings cause), d)
    | .ok settings => runCommand now settings command d spent

end Colloquy.CommandLine
