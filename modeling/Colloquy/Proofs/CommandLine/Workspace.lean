import Colloquy.CommandLine
import Colloquy.Proofs.Database
import Colloquy.Proofs.Source.Rows
import Colloquy.Proofs.Store.Contents
import Colloquy.Proofs.Store.Record

/-!
Workspaces from one run to the next. A workspace that is opened after a run shows the rows that the
run has left, or none, and the entries that it has flushed.
-/

namespace Colloquy

theorem Message.isName_indexed {name : String} (h : name ∈ indexed) : Index.isName name = true := by
  revert name
  decide

namespace CommandLine.Workspace
open Colloquy.Disk

/-- The store of a workspace is in its place and the database in its file. -/
structure Ready (settings : Settings) (w : Workspace) (place : Path) : Prop where
  sound : w.store.Sound place
  directory : w.store.directory = settings.indexDirectory
  file : w.database.file = Database.place? settings.databasePath
  holds : Database.Holds w.store.disk w.database.file w.database.rows

/-- The file of the database is not that of an index of messages. -/
def Apart (settings : Settings) (place : Path) : Prop :=
  ∀ name ∈ Message.indexed,
    Database.place? settings.databasePath ≠ some (place ++ [Index.fileName name])

variable {settings : Settings} {w w' : Workspace} {place : Path} {d d' : Disk}

theorem openAt_ok (h : openAt d settings = (.ok w, d')) : ∃ made,
    Store.openAt d settings.indexDirectory =
      (.ok { disk := made, directory := settings.indexDirectory }, made) ∧
    Database.openAt made settings.databasePath = (.ok w.database, d') ∧
    w.store = { disk := d', directory := settings.indexDirectory } := by
  unfold openAt at h
  split at h
  · cases h
  rename_i s made hstore
  have hs : s = { disk := made, directory := settings.indexDirectory } := by
    unfold Store.openAt at hstore
    split at hstore
    · cases hstore
    · obtain ⟨hs, rfl⟩ := Prod.mk.inj hstore
      exact (Except.ok.inj hs).symm
  subst hs
  split at h
  · cases h
  · rename_i database opened hdatabase
    obtain ⟨hw, rfl⟩ := Prod.mk.inj h
    rw [← Except.ok.inj hw]
    exact ⟨made, hstore, hdatabase, rfl⟩

theorem ready_openAt (h : openAt d settings = (.ok w, d')) : ∃ place, Ready settings w place := by
  obtain ⟨made, hstore, hdatabase, hw⟩ := openAt_ok h
  obtain ⟨-, -, place, hsound⟩ := Store.sound_openAt (congrArg Prod.fst hstore)
  obtain ⟨hholds, hchanges⟩ := Database.openAt_ok hdatabase
  have henter := enter_of_keeps hchanges.1 hsound.entered
  refine ⟨place, ?_, ?_, (Database.openAt_cases hdatabase).1, ?_⟩
  · rw [hw]
    exact Store.sound_unloaded hsound.walkable henter
  · rw [hw]
  · rw [hw]
    exact hholds

/-- A workspace is opened once more as it was. -/
theorem openAt_again {d₁ d₂ : Disk} (h : openAt d settings = (.ok w, d₁))
    (hagain : openAt d₁ settings = (.ok w', d₂)) :
    w'.store = w.store ∧ w'.database.rows = w.database.rows := by
  obtain ⟨place, hready⟩ := ready_openAt h
  obtain ⟨made, -, hdatabase, hw⟩ := openAt_ok h
  obtain ⟨made', hstore', hdatabase', hw'⟩ := openAt_ok hagain
  have hopened := Store.openAt_again hready.sound
  rw [hw, hstore'] at hopened
  obtain rfl : made' = d₁ := congrArg Prod.snd hopened
  obtain ⟨hrows, rfl⟩ := Database.openAt_again hdatabase hdatabase'
  exact ⟨hw'.trans hw.symm, hrows⟩

/-- Where the indexes of messages can be read, none of them is the file of the database. -/
theorem apart_of_entries (h : Ready settings w place) (hfresh : w.store.indexes = [])
    (hread : ∀ name ∈ Message.indexed, ∃ all, w.store.entries name = .ok all) :
    Apart settings place := by
  intro name hname hfile
  obtain ⟨all, hall⟩ := hread name hname
  rw [← h.file] at hfile
  obtain ⟨e, he⟩ := Index.load_database h.sound.entered (h.holds _ hfile)
  have hunloaded : Keyed.find? name w.store.indexes = none := by
    rw [hfresh]
    rfl
  rw [Store.entries, Store.index_of_unloaded (Message.isName_indexed hname) hunloaded,
    Store.pathOf, he] at hall
  cases hall

/-- What is left of a run when the next one begins. -/
theorem reopened (h : Ready settings w place) (hapart : Apart settings place) {written : Nat}
    (hflush : w.store.flushAll.1 = .ok written)
    (hopen : openAt w.store.flushAll.2.disk settings = (.ok w', d')) :
    Ready settings w' place ∧
      (w'.database.rows = {} ∨ w'.database.rows = w.database.rows) ∧
      ∀ name ∈ Message.indexed, ∀ all, w.store.entries name = .ok all → Index.Readable all →
        (∀ e ∈ all, e.2.Regular) → w'.store.entries name = .ok all := by
  have hflushed := Store.sound_flushAll h.sound
  have hdirectory : w.store.flushAll.2.directory = settings.indexDirectory :=
    (Store.flushEach_directory _ _).trans h.directory
  obtain ⟨made, hstore, hdatabase, hw'⟩ := openAt_ok hopen
  have hagain := Store.openAt_again hflushed
  rw [hdirectory, hstore] at hagain
  obtain rfl : made = w.store.flushAll.2.disk := congrArg Prod.snd hagain
  obtain ⟨hholds, hchanges⟩ := Database.openAt_ok hdatabase
  obtain ⟨hfile, hcases⟩ := Database.openAt_cases hdatabase
  have henter := hflushed.entered
  have hwalk := hflushed.walkable
  rw [hdirectory] at henter hwalk
  refine ⟨⟨?_, ?_, hfile, ?_⟩, ?_, fun name hname all hall hreadable hregular => ?_⟩
  · rw [hw']
    exact Store.sound_unloaded hwalk (enter_of_keeps hchanges.1 henter)
  · rw [hw']
  · rw [hw']
    exact hholds
  · rcases hcases with ⟨-, hempty, -⟩ | ⟨path, hpath, ⟨hnode, -⟩ | ⟨hempty, -⟩⟩
    · exact .inl hempty
    · -- a flush writes no database, so rows that are found were there before it
      have hbefore := h.holds path (h.file.trans (hfile.symm.trans hpath))
      rw [Store.flushAll_database h.sound hnode] at hbefore
      simp only [Option.some.injEq, Node.file.injEq, Content.database.injEq] at hbefore
      exact .inr hbefore
    · exact .inl hempty
  · -- opening the database may make its file, which is none of the indexes
    rw [hw', Store.entries_changesOnly henter hchanges (hfile ▸ hapart name hname), ← h.directory]
    exact Store.entries_reopened h.sound hflush hall hreadable hregular

/-- Rows that were changed, in a workspace that has loaded no index yet. -/
theorem updateRows_ok (h : Ready settings w place) (hfresh : w.store.indexes = [])
    {change : Source.Rows → Except Error Source.Rows} (hupdate : w.updateRows change = .ok w') :
    change w.database.rows = .ok w'.database.rows ∧ Ready settings w' place ∧
      (Apart settings place → ∀ name ∈ Message.indexed,
        w'.store.entries name = w.store.entries name) := by
  unfold updateRows at hupdate
  split at hupdate
  · cases hupdate
  rename_i rows hrows
  simp only at hupdate
  split at hupdate
  · cases hupdate
  rename_i disk hsave
  rw [← Except.ok.inj hupdate]
  have hplain : ∀ path, (⟨w.database.file, w.database.isReadOnly, rows⟩ : Database).file =
      some path → path.Plain :=
    fun path hpath => Database.plain_place (h.file.symm.trans hpath)
  obtain ⟨hholds, hchanges⟩ := Database.save_ok hplain hsave
  have hstore : w.store = { disk := w.store.disk, directory := w.store.directory } := by
    rw [← hfresh]
  have henter := h.sound.entered
  refine ⟨hrows, ⟨?_, h.directory, h.file, hholds⟩, fun hapart name hname => ?_⟩
  · change (⟨disk, w.store.directory, w.store.indexes⟩ : Store).Sound place
    rw [hfresh]
    exact Store.sound_unloaded h.sound.walkable (enter_of_keeps hchanges.1 henter)
  · change (⟨disk, w.store.directory, w.store.indexes⟩ : Store).entries name = _
    rw [hfresh, Store.entries_changesOnly henter hchanges (h.file ▸ hapart name hname), ← hstore]

/-- All that a query can come to: it selects nothing, and only the trees that are kept may have
changed, or it selects from candidates that have rows, to the end or until its budget is spent. -/
theorem query_cases (w : Workspace) (now : Instant) (spent : Option (Nat → Bool)) (bout : UInt64)
    (written : String) :
    (∃ failure cache, w.query now spent bout written =
      (.error failure, { w with engine := { w.engine with cache } })) ∨
    ∃ candidates p token outcome cache, w.source.messages bout = .ok candidates ∧
      w.query now spent bout written =
        (outcome, { w with engine := ⟨(Store.selectFrom w.source now p Message.number token
          w.store 0 [] candidates).2, cache⟩ }) := by
  unfold query
  cases hcandidates : w.source.messages bout with
  | error e => exact .inl ⟨.error e, w.engine.cache, rfl⟩
  | ok candidates =>
    simp only [Engine.selectWhile, Engine.parse]
    rcases w.engine.cache.parse written with ⟨e | parsed, cache⟩
    · cases spent with
      | none => exact .inl ⟨.error e, cache, rfl⟩
      | some token => exact .inl ⟨.error .timeout, cache, rfl⟩
    · exact .inr ⟨candidates, parsed.tree, _, _, cache, rfl, rfl⟩

/-- A query, with what it asks for. -/
def recordQuery (w : Workspace) (now : Instant) (spent : Option (Nat → Bool)) (bout : UInt64)
    (written : String) : (Except Failure (List Message) × Workspace) × List Answered :=
  match w.source.messages bout with
  | .error e => ((.error (.error e), w), [])
  | .ok candidates =>
    let ending (outcome : Except Error (List Message)) : Except Failure (List Message) :=
      (if spent.isSome then .error .timeout else outcome).mapError .error
    match w.engine.cache.parse written with
    | (.error e, cache) => ((ending (.error e), { w with engine := { w.engine with cache } }), [])
    | (.ok parsed, cache) =>
      let ((outcome, store), asked) := Store.recordFrom w.source now parsed.tree Message.number
        (spent.getD fun _ => false) w.store 0 [] candidates
      ((ending outcome, { w with engine := ⟨store, cache⟩ }), asked)

theorem recordQuery_query (w : Workspace) (now : Instant) (spent : Option (Nat → Bool))
    (bout : UInt64) (written : String) :
    (w.recordQuery now spent bout written).1 = w.query now spent bout written := by
  unfold recordQuery query
  cases w.source.messages bout with
  | error e => rfl
  | ok candidates =>
    simp only [Engine.selectWhile, Engine.parse]
    rcases w.engine.cache.parse written with ⟨e | parsed, cache⟩
    · rfl
    · simp only [Store.selectWhile, ← Store.recordFrom_selectFrom]
      rfl

/-- A query asks only for attributes of messages that have rows, and the answers are those of the
beginning. -/
theorem recordQuery_answers (w : Workspace) (now : Instant) (spent : Option (Nat → Bool))
    (bout : UInt64) (written : String) :
    ∀ a ∈ (w.recordQuery now spent bout written).2,
      (∃ row, w.database.rows.row? a.message = some row) ∧
        a.answer = w.store.view w.source a.message a.name := by
  intro a ha
  unfold recordQuery at ha
  split at ha
  · cases ha
  rename_i candidates hcandidates
  simp only at ha
  split at ha
  · cases ha
  rename_i parsed cache _
  let asked : UInt64 → String → Prop :=
    fun number _ => ∃ row, w.database.rows.row? number = some row
  have hasked : ∀ c ∈ candidates, ∀ name ∈ parsed.tree.attributes, asked c.number name :=
    fun c hc _ _ => Source.Rows.row?_of_mem (Source.Rows.mem_of_messages hcandidates c hc)
  exact Store.recordFrom_answers candidates hasked now _ w.store 0 [] a ha

end CommandLine.Workspace

end Colloquy
