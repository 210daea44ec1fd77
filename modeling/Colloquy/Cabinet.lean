import Colloquy.Index

/-!
What can be done with the indexes of a directory, however they are kept. A flush that fails leaves
the index to be flushed again.
-/

namespace Colloquy

class Cabinet (σ : Type) where
  disk : σ → Disk
  withDisk : σ → Disk → σ
  pathOf : σ → String → Path
  /-- The index of a name, loaded now if it was not. -/
  index : σ → String → Except Error Index × σ
  /-- Keeps an index under a name, in place of the one that was loaded. -/
  keep : σ → String → Index → σ
  loaded : σ → List (String × Index)

namespace Cabinet
variable {σ : Type} [Cabinet σ]

def get? (s : σ) (name : String) (message : UInt64) : Except Error (Option Value) × σ :=
  match index s name with
  | (.error e, s) => (.error e, s)
  | (.ok i, s) => (.ok (i.get? message), s)

def put (s : σ) (name : String) (message : UInt64) (value : Value) : Except Error Unit × σ :=
  match index s name with
  | (.error e, s) => (.error e, s)
  | (.ok i, s) => (.ok (), keep s name (i.put message value))

/-- Writes the file of a loaded index if the index has changed, and tells whether it did. -/
def flushLoaded (s : σ) (name : String) (i : Index) : Except Error Bool × σ :=
  if i.dirty then
    match Index.writeAt (disk s) (pathOf s name) name i.entries with
    -- still marked as changed, so it is written with the next flush
    | (.error fault, d) => (.error (.disk fault), withDisk s d)
    | (.ok _, d) => (.ok true, keep (withDisk s d) name { i with dirty := false })
  else (.ok false, s)

def flush (s : σ) (name : String) : Except Error Bool × σ :=
  match index s name with
  | (.error e, s) => (.error e, s)
  | (.ok i, s) => flushLoaded s name i

/-- Flushes indexes one after another, a failure not keeping the rest from being flushed. -/
def flushEach (s : σ) : List (String × Index) → List (Except Error Bool) × σ
  | [] => ([], s)
  | (name, i) :: rest =>
    let (outcome, s) := flushLoaded s name i
    let (outcomes, s) := flushEach s rest
    (outcome :: outcomes, s)

/-- The number of indexes that were written, unless one failed: then the first failure. -/
def countWritten : List (Except Error Bool) → Except Error Nat
  | [] => .ok 0
  | .error e :: _ => .error e
  | .ok written :: rest => (countWritten rest).map fun n => if written then n + 1 else n

def flushAll (s : σ) : Except Error Nat × σ :=
  let (outcomes, s) := flushEach s (loaded s)
  (countWritten outcomes, s)

/-- One line for the directory, which goes by `label`, and one for each loaded index. -/
def statistics (s : σ) (label : String) : List String :=
  s!"{(loaded s).length} index(es) materialized in {label}" :: (loaded s).map line
where
  line (entry : String × Index) : String :=
    let onDisk := (disk s).size (pathOf s entry.1)
    let mark := if entry.2.dirty then ", unflushed changes" else ""
    s!"  {entry.1}: {entry.2.size} entries, {onDisk} bytes on disk{mark}"

end Cabinet

end Colloquy
