import Colloquy.Reading
import Colloquy.Cabinet

/-!
A store of indexes. An index is loaded when it is first asked for and kept from then on; a load that
fails leaves nothing behind.
-/

namespace Colloquy

structure Store where
  disk : Disk
  /-- The directory of the files, as it was written when the store was opened. -/
  directory : String
  indexes : List (String × Index) := []

namespace Store

def openAt (d : Disk) (directory : String) : Except Error Store × Disk :=
  match d.createDirectories (Path.ofString directory) with
  | (.error fault, d) => (.error (.disk fault), d)
  | (.ok _, d) => (.ok { disk := d, directory }, d)

def pathOf (s : Store) (name : String) : Path :=
  Path.ofString s.directory ++ [Index.fileName name]

/-- The index of a name, loaded now if it was not. -/
def index (s : Store) (name : String) : Except Error Index × Store :=
  if Index.isName name then
    match Keyed.find? name s.indexes with
    | some i => (.ok i, s)
    | none =>
      match Index.load s.disk (s.pathOf name) name with
      -- nothing is kept of a failure, so the file is read anew the next time
      | .error e => (.error e, s)
      | .ok i => (.ok i, { s with indexes := Keyed.insert name i s.indexes })
  else (.error (.invalidName name), s)

instance : Cabinet Store where
  disk := disk
  withDisk s disk := { s with disk }
  pathOf := pathOf
  index := index
  keep s name i := { s with indexes := Keyed.insert name i s.indexes }
  loaded := indexes

def get? (s : Store) (name : String) (message : UInt64) : Except Error (Option Value) × Store :=
  Cabinet.get? s name message

theorem get?_eq (s : Store) (name : String) (message : UInt64) :
    s.get? name message =
      ((s.index name).1.map fun i => i.get? message, (s.index name).2) := by
  have hindex : Cabinet.index s name = s.index name := rfl
  rw [get?, Cabinet.get?, hindex]
  rcases s.index name with ⟨e | i, s'⟩ <;> rfl

def put (s : Store) (name : String) (message : UInt64) (value : Value) :
    Except Error Unit × Store :=
  Cabinet.put s name message value

theorem put_def (s : Store) (name : String) (message : UInt64) (value : Value) :
    s.put name message value =
      match s.index name with
      | (.error e, s) => (.error e, s)
      | (.ok i, s) =>
        (.ok (), { s with indexes := Keyed.insert name (i.put message value) s.indexes }) := by
  have hindex : Cabinet.index s name = s.index name := rfl
  rw [put, Cabinet.put, hindex]
  rcases s.index name with ⟨e | i, s'⟩ <;> rfl

def flushLoaded (s : Store) (name : String) (i : Index) : Except Error Bool × Store :=
  Cabinet.flushLoaded s name i

theorem flushLoaded_def (s : Store) (name : String) (i : Index) : s.flushLoaded name i =
    if i.dirty then
      match Index.writeAt s.disk (s.pathOf name) name i.entries with
      | (.error fault, d) => (.error (.disk fault), { s with disk := d })
      | (.ok _, d) =>
        (.ok true,
          { s with disk := d, indexes := Keyed.insert name { i with dirty := false } s.indexes })
    else (.ok false, s) := by
  have hwrite : Index.writeAt (Cabinet.disk s) (Cabinet.pathOf s name) name i.entries =
      Index.writeAt s.disk (s.pathOf name) name i.entries := rfl
  rw [flushLoaded, Cabinet.flushLoaded, hwrite]
  rcases Index.writeAt s.disk (s.pathOf name) name i.entries with ⟨fault | _, d⟩ <;> rfl

def flush (s : Store) (name : String) : Except Error Bool × Store := Cabinet.flush s name

theorem flush_def (s : Store) (name : String) : s.flush name =
    match s.index name with
    | (.error e, s) => (.error e, s)
    | (.ok i, s) => s.flushLoaded name i := by
  have hindex : Cabinet.index s name = s.index name := rfl
  rw [flush, Cabinet.flush, hindex]
  rcases s.index name with ⟨e | i, s'⟩ <;> rfl

def flushEach (s : Store) (indexes : List (String × Index)) : List (Except Error Bool) × Store :=
  Cabinet.flushEach s indexes

theorem flushEach_cons (s : Store) (name : String) (i : Index) (rest : List (String × Index)) :
    s.flushEach ((name, i) :: rest) =
      ((s.flushLoaded name i).1 :: ((s.flushLoaded name i).2.flushEach rest).1,
        ((s.flushLoaded name i).2.flushEach rest).2) := rfl

def flushAll (s : Store) : Except Error Nat × Store := Cabinet.flushAll s

theorem flushAll_def (s : Store) : s.flushAll =
    (Cabinet.countWritten (s.flushEach s.indexes).1, (s.flushEach s.indexes).2) := rfl

def statistics (s : Store) (label : String) : List String := Cabinet.statistics s label

/-- An attribute of a message: from its index, or else from the source, whose answer is put into the
index. What nothing is known about is absent and not put anywhere. -/
def attr (s : Store) (source : Source) (message : UInt64) (name : String) :
    Except Error Value × Store :=
  match s.get? name message with
  | (.error e, s) => (.error e, s)
  | (.ok (some value), s) => (.ok value, s)
  | (.ok none, s) =>
    match source.attr? message name with
    | .error e => (.error e, s)
    | .ok none => (.ok .absent, s)
    | .ok (some value) =>
      match s.put name message value with
      | (.error e, s) => (.error e, s)
      | (.ok _, s) => (.ok value, s)

def run {α : Type} (s : Store) (source : Source) : Reading α → Except Error α × Store
  | .done outcome => (outcome.mapError .mismatch, s)
  | .read message name next =>
    match s.attr source message name with
    | (.error e, s) => (.error e, s)
    | (.ok value, s) => run s source (next value)

end Store

end Colloquy
