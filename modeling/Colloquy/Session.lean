import Colloquy.Background
import Colloquy.Source.Memory

namespace Colloquy

inductive Archive where
  | memory (messages : Source.Memory)
  | rows (messages : Source.Rows)

namespace Archive

def post : Archive → Message → Except Error Archive
  | memory s, m => .ok (memory (s.post m))
  | rows s, m => (s.post m).map rows

def join : Archive → UInt64 → String → Except Error Archive
  | memory s, bout, identity => .ok (memory (s.join bout identity))
  | rows s, bout, identity => (s.join bout identity).map rows

def toSource : Archive → Source
  | memory s => s.toSource
  | rows s => s.toSource

end Archive

structure Session where
  archive : Archive
  interface : Interface
  /-- The numbers of the trees that were handed out, in order. -/
  handedOut : List Nat := []

namespace Session

def defaultDirectory : String := "idx"

/-- An interface over a new store and an engine that keeps up to `limit` trees, numbered from
`next` on. -/
def openStore (d : Disk) (directory : String) (limit next : Nat) :
    Except Error Interface × Disk :=
  match Store.openAt d directory with
  | (.error e, d) => (.error e, d)
  | (.ok store, d) => (.ok { engine := { store, cache := { limit, next } } }, d)

def new (archive : Archive) (limit : Nat) : Except Error Session :=
  (openStore {} defaultDirectory limit 0).1.map fun interface => { archive, interface }

def engine (s : Session) : Engine := s.interface.engine

def store (s : Session) : Store := s.interface.engine.store

def disk (s : Session) : Disk := s.store.disk

def source (s : Session) : Source := Gates.inFrontOf s.archive.toSource

def withEngine (s : Session) (engine : Engine) : Session :=
  { s with interface := { s.interface with engine } }

def withStore (s : Session) (store : Store) : Session :=
  s.withEngine { s.engine with store }

/-- How many answers a gate gave while a store was worked with: each of them is an entry of its
index that was not there before. -/
def answers (before after : Store) (gate : String) : Nat :=
  let entries := (Keyed.find? gate after.indexes).elim [] Index.entries
  let isNew (entry : Index.Entry) : Bool :=
    match (before.get? gate entry.1).1 with
    | .ok none => true
    | _ => false
  (entries.filter isNew).length

/-- The session after its engine has read attributes. The answers that gates gave have used up
permits. -/
def afterReading (s : Session) (engine : Engine) : Session :=
  let names := (engine.store.indexes.map Prod.fst).filter Gates.isGate
  let spend (g : Gates) (name : String) := g.spend name (answers s.store engine.store name)
  { s with interface := { s.interface with engine, gates := names.foldl spend s.interface.gates } }

def withDisk (s : Session) (disk : Disk) : Session := s.withStore { s.store with disk }

def post (s : Session) (m : Message) : Except Error Session :=
  (s.archive.post m).map fun archive => { s with archive }

def join (s : Session) (bout : UInt64) (identity : String) : Except Error Session :=
  (s.archive.join bout identity).map fun archive => { s with archive }

/-- The tree of a query, and the first of the trees handed out before that is the same one. -/
def parse (s : Session) (query : String) : Except Error (Predicate × Option Nat) × Session :=
  match s.engine.parse query with
  | (.error e, engine) => (.error e, s.withEngine engine)
  | (.ok parsed, engine) =>
    (.ok (parsed.tree, s.handedOut.findIdx? fun serial => serial = parsed.serial),
      { s.withEngine engine with handedOut := s.handedOut ++ [parsed.serial] })

/-- Lets all queries end, closes the store, which flushes it, and opens one in a directory. If that
fails, the former directory is opened again. -/
def reopen (s : Session) (directory : String) : Except Error Unit × Session :=
  let interface := s.interface.finish s.archive.toSource
  let former := interface.engine.store.directory
  let cache := interface.engine.cache
  let flushed := interface.engine.store.flushAll.2.disk
  match openStore flushed directory cache.limit cache.next with
  | (.ok interface, _) => (.ok (), { s with interface })
  | (.error e, d) =>
    match openStore d former cache.limit cache.next with
    | (.ok interface, _) => (.error e, { s with interface })
    | (.error _, d) => (.error e, s.withDisk d)

end Session

end Colloquy
