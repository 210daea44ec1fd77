import Colloquy.Proofs.Index.Format
import Colloquy.Proofs.Store.Persistence
import Colloquy.Proofs.Store.WarmUp

/-!
A request is a row of moves on single indexes: one is loaded, changed or flushed. What a store has
in memory and on disk is read off the record of the moves.
-/

namespace Colloquy.Store
open Colloquy.Disk

/-- What happens to an index: it is loaded, with what its file was found to hold, or changed, or
flushed. -/
inductive Event where
  | loaded (name : String) (found : Except Fault Content)
  | changed (name : String)
  | flushed (name : String) (outcome : Except Error Bool)

def Event.name : Event → String
  | .loaded name _ => name
  | .changed name => name
  | .flushed name _ => name

/-- A load, or a flush that does not fail. -/
def Event.Settles : Event → Prop
  | .loaded _ _ => True
  | .changed _ => False
  | .flushed _ outcome => ∃ written, outcome = .ok written

/-- The index was changed since it was loaded and since it was last flushed without a failure. -/
def ChangedSince (name : String) (events : List Event) : Prop :=
  ∃ earlier later, events = earlier ++ .changed name :: later ∧
    ∀ e ∈ later, e.name = name → ¬ e.Settles

inductive Request where
  | operation (operation : Operation)
  | get (name : String) (message : UInt64)

def Request.apply (s : Store) : Request → Store
  | .operation asked => asked.apply s
  | .get name message => (s.get? name message).2

/-- The only index that a request is about, unless it is about all of them. -/
def Request.target? : Request → Option String
  | .operation (.index name) => some name
  | .operation (.put name _ _) => some name
  | .operation (.flush name) => some name
  | .operation .flushAll => none
  | .get name _ => some name

/-- What reading the file of an index comes to. -/
def file (s : Store) (name : String) : Except Fault Content := s.disk.read (s.pathOf name)

/-- Asking for an index loads it unless it was loaded before or cannot be. -/
def loading (s : Store) (name : String) : List Event :=
  match Keyed.find? name s.indexes, (s.index name).1 with
  | none, .ok _ => [.loaded name (s.file name)]
  | _, _ => []

/-- The flushes of indexes, with their outcomes. -/
def flushes (indexes : List (String × Index)) (outcomes : List (Except Error Bool)) :
    List Event :=
  (indexes.zip outcomes).map fun flush => .flushed flush.1.1 flush.2

/-- What a request does, in order. -/
def Request.events (s : Store) : Request → List Event
  | .operation (.index name) => s.loading name
  | .operation (.put name message value) =>
    s.loading name ++ match (s.put name message value).1 with
      | .ok _ => [.changed name]
      | .error _ => []
  | .operation (.flush name) =>
    s.loading name ++ match (s.index name).1 with
      | .ok _ => [.flushed name (s.flush name).1]
      | .error _ => []
  | .operation .flushAll =>
    flushes s.indexes (s.flushEach s.indexes).1
  | .get name _ => s.loading name

/-- A disk that leads to the same files of indexes. Anything else may be another, staging files and
locked places with it: so a write can fail at its staging file or at the rename. -/
structure Spares (s : Store) (d : Disk) : Prop where
  entered : d.enter [] (Path.ofString s.directory) = s.disk.enter [] (Path.ofString s.directory)
  files : ∀ name, d.read (s.pathOf name) = s.file name

/-- So any places may be locked, and any may be unlocked. -/
theorem spares_locked (s : Store) (places : List Path) :
    Spares s { s.disk with locked := places } := by
  have hsame : { s.disk with locked := places }.nodes = s.disk.nodes := rfl
  exact ⟨enter_congr hsame _ _, fun name => read_congr hsame _⟩

/-- The stores that are come to by requests, with all that has happened to their indexes. Between
two requests the disk may become another that spares the files. -/
inductive Reached (start : Store) : List Event → Store → Prop where
  | start : Reached start [] start
  | asked {events : List Event} {s : Store} (h : Reached start events s) (r : Request) :
      Reached start (events ++ r.events s) (r.apply s)
  | aside {events : List Event} {s : Store} (h : Reached start events s) {d : Disk}
      (hd : Spares s d) : Reached start events { s with disk := d }

theorem changedSince_snoc {name : String} {events : List Event} {e : Event} :
    ChangedSince name (events ++ [e]) ↔
      e = .changed name ∨ ChangedSince name events ∧ (e.name = name → ¬ e.Settles) := by
  constructor
  · rintro ⟨earlier, later, hsplit, hlater⟩
    -- the last event is the change, or it comes after it
    rcases List.eq_nil_or_concat later with rfl | ⟨before, last, rfl⟩
    · have hlast := (List.append_inj' hsplit rfl).2
      exact .inl (List.cons.inj hlast).1
    · rw [List.concat_eq_append] at hsplit hlater
      rw [← List.cons_append, ← List.append_assoc] at hsplit
      obtain ⟨hevents, hlast⟩ := List.append_inj' hsplit rfl
      rw [(List.cons.inj hlast).1]
      refine .inr ⟨⟨earlier, before, hevents, ?_⟩, ?_⟩
      · intro e he
        exact hlater e (List.mem_append_left _ he)
      · exact hlater last (List.mem_append_right _ (List.mem_singleton_self last))
  · rintro (rfl | ⟨⟨earlier, later, rfl, hlater⟩, he⟩)
    · refine ⟨events, [], rfl, ?_⟩
      intro e he
      cases he
    · refine ⟨earlier, later ++ [e], List.append_assoc earlier _ [e], ?_⟩
      intro e' he'
      rcases List.mem_append.1 he' with hmem | hmem
      · exact hlater e' hmem
      · rw [List.mem_singleton.1 hmem]
        exact he

theorem mem_of_changedSince {name : String} {events : List Event}
    (h : ChangedSince name events) : .changed name ∈ events := by
  obtain ⟨earlier, later, rfl, -⟩ := h
  exact List.mem_append_right _ List.mem_cons_self

/-- A move on one index. -/
inductive Move (s : Store) : Event → Store → Prop where
  | load {name : String} {i : Index} (hname : Index.isName name = true)
      (hfind : Keyed.find? name s.indexes = none)
      (hload : Index.load s.disk (s.pathOf name) name = .ok i) :
      Move s (.loaded name (s.file name)) { s with indexes := Keyed.insert name i s.indexes }
  | change {name : String} {i : Index} (hfind : Keyed.find? name s.indexes = some i)
      (message : UInt64) (value : Value) :
      Move s (.changed name)
        { s with indexes := Keyed.insert name (i.put message value) s.indexes }
  | flush {name : String} {i : Index} (hfind : Keyed.find? name s.indexes = some i) :
      Move s (.flushed name (s.flushLoaded name i).1) (s.flushLoaded name i).2

inductive Moves : Store → List Event → Store → Prop where
  | nil (s : Store) : Moves s [] s
  | cons {s t s' : Store} {e : Event} {events : List Event} (head : Move s e t)
      (rest : Moves t events s') : Moves s (e :: events) s'

variable {s t s' : Store} {place : Path} {name : String} {e : Event} {events later : List Event}

theorem moves_append (h : Moves s events t) (hlater : Moves t later s') :
    Moves s (events ++ later) s' := by
  induction h with
  | nil s => exact hlater
  | cons head rest ih => exact .cons head (ih hlater)

theorem moves_one (h : Move s e s') : Moves s [e] s' := .cons h (.nil s')

/-! ## What a move does -/

theorem sound_move (h : Sound s place) (hmove : Move s e s') : Sound s' place := by
  cases hmove with
  | load hname hfind hload => exact sound_load h hname hload
  | change hfind message value => exact sound_change h hfind message value
  | flush hfind => exact sound_flushLoaded h (h.named _ _ hfind) (h.sorted _ _ hfind)

/-- An index and its file are what they were. -/
structure Kept (name : String) (s s' : Store) : Prop where
  index : Keyed.find? name s'.indexes = Keyed.find? name s.indexes
  file : s'.file name = s.file name

theorem kept_refl (name : String) (s : Store) : Kept name s s := ⟨rfl, rfl⟩

theorem kept_trans (h : Kept name s t) (h' : Kept name t s') : Kept name s s' :=
  ⟨h'.index.trans h.index, h'.file.trans h.file⟩

/-- All that flushing a loaded index comes to: nothing where it is clean, and else a failure, which
leaves it as it is, or its file in full. -/
theorem flushLoaded_cases (h : Sound s place) {i : Index}
    (hfind : Keyed.find? name s.indexes = some i) :
    (∀ other, other ≠ name → Kept other s (s.flushLoaded name i).2) ∧
    (i.dirty = false ∧ s.flushLoaded name i = (.ok false, s) ∨
      i.dirty = true ∧
        ((∃ error, (s.flushLoaded name i).1 = .error error) ∧
            Kept name s (s.flushLoaded name i).2 ∨
          (s.flushLoaded name i).1 = .ok true ∧
            Keyed.find? name (s.flushLoaded name i).2.indexes = some { i with dirty := false } ∧
            (s.flushLoaded name i).2.file name =
              .ok (.bytes (Index.encode name i.entries)))) := by
  have hname : Index.isName name = true := h.named name i hfind
  have hkeeps : Keeps s.disk (Index.writeAt s.disk (s.pathOf name) name i.entries).2 :=
    Index.keeps_writeAt h.entered hname i.entries
  -- a file at whose place nothing is changed reads as it did
  have hread {d : Disk} (hd : Keeps s.disk d) {other : String}
      (hnode : d.node? (place ++ [Index.fileName other]) =
        s.disk.node? (place ++ [Index.fileName other])) :
      d.read (s.pathOf other) = s.file other :=
    Index.read_fileName (enter_of_keeps hd h.entered) h.entered hnode
  have hother {other : String} (hne : other ≠ name) :
      (Index.writeAt s.disk (s.pathOf name) name i.entries).2.read (s.pathOf other) =
        s.file other :=
    hread hkeeps (Index.writeAt_other h.entered hname i.entries hne)
  rcases flushLoaded_outcome s name i with
    ⟨hclean, hc⟩ | ⟨hdirty, ⟨fault, d, hwrite, hc⟩ | ⟨d, hwrite, hc⟩⟩
  · rw [hc]
    exact ⟨fun other _ => kept_refl other s, .inl ⟨hclean, rfl⟩⟩
  · rw [hwrite] at hkeeps hother
    have hsame := hread hkeeps (Index.writeAt_failed h.entered hname hwrite)
    rw [hc]
    exact ⟨fun other hne => ⟨rfl, hother hne⟩, .inr ⟨hdirty, .inl ⟨⟨_, rfl⟩, rfl, hsame⟩⟩⟩
  · rw [hwrite] at hother
    rw [hc]
    refine ⟨fun other hne => ⟨Keyed.find?_insert_of_ne hne _ _, hother hne⟩, .inr ⟨hdirty, .inr ?_⟩⟩
    exact ⟨rfl, Keyed.find?_insert_self _ _ _, Index.read_writeAt hwrite⟩

/-- A move leaves all other indexes and their files alone. -/
theorem kept_of_move (h : Sound s place) (hmove : Move s e s') (hne : name ≠ e.name) :
    Kept name s s' := by
  cases hmove with
  | load => exact ⟨Keyed.find?_insert_of_ne hne _ _, rfl⟩
  | change => exact ⟨Keyed.find?_insert_of_ne hne _ _, rfl⟩
  | flush hfind => exact (flushLoaded_cases h hfind).1 name hne

theorem sound_moves (h : Sound s place) (hmoves : Moves s events s') : Sound s' place := by
  induction hmoves with
  | nil => exact h
  | cons head rest ih => exact ih (sound_move h head)

theorem kept_of_moves (h : Sound s place) (hmoves : Moves s events s')
    (hne : ∀ e ∈ events, name ≠ e.name) : Kept name s s' := by
  induction hmoves with
  | nil s => exact kept_refl name s
  | cons head rest ih =>
    have hfirst := kept_of_move h head (hne _ List.mem_cons_self)
    have hrest := ih (sound_move h head) fun e he => hne e (List.mem_cons_of_mem _ he)
    exact kept_trans hfirst hrest

/-- A file changes when its index is flushed with changes, and at no other move. -/
theorem written_of_file_ne (h : Sound s place) (hmove : Move s e s')
    (hne : s'.file name ≠ s.file name) :
    e = .flushed name (.ok true) ∧ ∃ i, Keyed.find? name s.indexes = some i ∧ i.dirty = true := by
  have hname : name = e.name := by
    by_contra hother
    exact hne (kept_of_move h hmove hother).file
  subst hname
  cases hmove with
  | load => exact absurd rfl hne
  | change => exact absurd rfl hne
  | flush hfind =>
    obtain ⟨-, ⟨-, hclean⟩ | ⟨hdirty, ⟨-, hkept⟩ | ⟨hwritten, -⟩⟩⟩ := flushLoaded_cases h hfind
    · rw [hclean] at hne
      exact absurd rfl hne
    · exact absurd hkept.file hne
    · rw [hwritten]
      exact ⟨rfl, _, hfind, hdirty⟩

theorem flushed_of_file_ne (h : Sound s place) (hmoves : Moves s events s')
    (hne : s'.file name ≠ s.file name) : .flushed name (.ok true) ∈ events := by
  induction hmoves with
  | nil => exact absurd rfl hne
  | cons head rest ih =>
    rename_i s t s' e events
    by_cases hsame : t.file name = s.file name
    · rw [← hsame] at hne
      exact List.mem_cons_of_mem _ (ih (sound_move h head) hne)
    · rw [(written_of_file_ne h head hsame).1]
      exact List.mem_cons_self

/-- Where no index is moved twice, a flush that fails leaves its index unflushed and its file as it
was, whatever else is done. -/
theorem kept_of_failed (h : Sound s place) (hmoves : Moves s events s')
    (honce : (events.map Event.name).Nodup) {error : Error}
    (hfailed : .flushed name (.error error) ∈ events) :
    Kept name s s' ∧ ∃ i, Keyed.find? name s.indexes = some i ∧ i.dirty = true := by
  induction hmoves with
  | nil => cases hfailed
  | cons head rest ih =>
    rename_i s t s' e events
    obtain ⟨hfirst, hothers⟩ := List.nodup_cons.1 honce
    have hsound := sound_move h head
    rcases List.mem_cons.1 hfailed with rfl | hlater
    · have hrest : Kept name t s' := by
        apply kept_of_moves hsound rest
        intro e he hname
        exact hfirst (List.mem_map.2 ⟨e, he, hname.symm⟩)
      generalize hevent : Event.flushed name (.error error) = e at head
      cases head with
      | load => cases hevent
      | change => cases hevent
      | flush hfind =>
        rename_i n i
        obtain ⟨rfl, houtcome⟩ := Event.flushed.inj hevent
        obtain ⟨-, ⟨-, hclean⟩ | ⟨hdirty, ⟨-, hkept⟩ | ⟨hwritten, -⟩⟩⟩ := flushLoaded_cases h hfind
        · rw [hclean] at houtcome
          cases houtcome
        · exact ⟨kept_trans hkept hrest, i, hfind, hdirty⟩
        · rw [hwritten] at houtcome
          cases houtcome
    · have hne : name ≠ e.name := by
        intro hname
        exact hfirst (List.mem_map.2 ⟨_, hlater, hname⟩)
      have hkept := kept_of_move h head hne
      obtain ⟨hrest, i, hfind, hdirty⟩ := ih hsound hothers hlater
      exact ⟨kept_trans hkept hrest, i, hkept.index ▸ hfind, hdirty⟩

/-! ## Requests as moves -/

theorem moves_loading (s : Store) (name : String) :
    Moves s (s.loading name) (s.index name).2 := by
  unfold loading
  rcases index_cases s name with ⟨e, hc⟩ | ⟨hname, ⟨i, hfind, hc⟩ | ⟨i, hfind, hload, hc⟩⟩
  · rw [hc]
    cases Keyed.find? name s.indexes <;> exact .nil s
  · rw [hc, hfind]
    exact .nil s
  · rw [hc, hfind]
    exact moves_one (.load hname hfind hload)

theorem moves_flushEach (h : Sound s place) {indexes : List (String × Index)}
    (hnames : (indexes.map Prod.fst).Nodup)
    (hall : ∀ entry ∈ indexes, Keyed.find? entry.1 s.indexes = some entry.2) :
    Moves s (flushes indexes (s.flushEach indexes).1) (s.flushEach indexes).2 := by
  induction indexes generalizing s with
  | nil => exact .nil s
  | cons head rest ih =>
    obtain ⟨name, i⟩ := head
    obtain ⟨hfirst, hothers⟩ := List.nodup_cons.1 hnames
    have hfind : Keyed.find? name s.indexes = some i := hall (name, i) List.mem_cons_self
    rw [flushEach_cons]
    refine .cons (.flush hfind) (ih (sound_move h (.flush hfind)) hothers ?_)
    -- the indexes that are still to be flushed are as they were
    intro entry hentry
    have hne : entry.1 ≠ name := by
      rintro rfl
      exact hfirst (List.mem_map.2 ⟨entry, hentry, rfl⟩)
    have hkept := (flushLoaded_cases h hfind).1 entry.1 hne
    rw [hkept.index]
    exact hall entry (List.mem_cons_of_mem _ hentry)

theorem moves_request (h : Sound s place) (r : Request) : Moves s (r.events s) (r.apply s) := by
  cases r with
  | get name message =>
    have hget := congrArg Prod.snd (get?_eq s name message)
    rw [Request.events, Request.apply, hget]
    exact moves_loading s name
  | operation asked =>
    cases asked with
    | index name => exact moves_loading s name
    | put name message value =>
      have hindex := moves_loading s name
      simp only [Request.events, Request.apply, Operation.apply, put_eq]
      rcases hc : s.index name with ⟨error | i, t⟩
      · rw [hc] at hindex
        simpa only [List.append_nil] using hindex
      · rw [hc] at hindex
        exact moves_append hindex (moves_one (.change (find?_of_index hc).2 message value))
    | flush name =>
      have hindex := moves_loading s name
      simp only [Request.events, Request.apply, Operation.apply, flush_def]
      rcases hc : s.index name with ⟨error | i, t⟩
      · rw [hc] at hindex
        simpa only [List.append_nil] using hindex
      · rw [hc] at hindex
        exact moves_append hindex (moves_one (.flush (find?_of_index hc).2))
    | flushAll =>
      refine moves_flushEach h (Keyed.nodup_keys h.ordered) ?_
      intro entry hentry
      exact Keyed.find?_of_mem h.ordered hentry

theorem mem_loading (h : e ∈ s.loading name) : e = .loaded name (s.file name) := by
  unfold loading at h
  split at h
  · exact List.mem_singleton.1 h
  · cases h

/-- All that can happen at a request about one index. -/
theorem events_cases {r : Request} (h : e ∈ r.events s) :
    (∃ name, r.target? = some name ∧ (e = .loaded name (s.file name) ∨ e = .changed name ∨
      r = .operation (.flush name) ∧ e = .flushed name (s.flush name).1)) ∨
    r = .operation .flushAll := by
  cases r with
  | get name message => exact .inl ⟨name, rfl, .inl (mem_loading h)⟩
  | operation asked =>
    cases asked with
    | index name => exact .inl ⟨name, rfl, .inl (mem_loading h)⟩
    | put name message value =>
      rcases List.mem_append.1 h with hloading | hchange
      · exact .inl ⟨name, rfl, .inl (mem_loading hloading)⟩
      · split at hchange
        · exact .inl ⟨name, rfl, .inr (.inl (List.mem_singleton.1 hchange))⟩
        · cases hchange
    | flush name =>
      rcases List.mem_append.1 h with hloading | hflush
      · exact .inl ⟨name, rfl, .inl (mem_loading hloading)⟩
      · split at hflush
        · exact .inl ⟨name, rfl, .inr (.inr ⟨rfl, List.mem_singleton.1 hflush⟩)⟩
        · cases hflush
    | flushAll => exact .inr rfl

/-- A request about one index does nothing to another. -/
theorem name_of_mem_events {r : Request} (htarget : r.target? = some name)
    (he : e ∈ r.events s) : e.name = name := by
  rcases events_cases he with ⟨other, hother, hcases⟩ | rfl
  · obtain rfl : name = other := Option.some.inj (htarget.symm.trans hother)
    rcases hcases with rfl | rfl | ⟨-, rfl⟩ <;> rfl
  · cases htarget

theorem length_flushEach (s : Store) (indexes : List (String × Index)) :
    (s.flushEach indexes).1.length = indexes.length := by
  induction indexes generalizing s with
  | nil => rfl
  | cons head rest ih => rw [flushEach_cons, List.length_cons, List.length_cons, ih]

theorem nodup_flushes (s : Store) {indexes : List (String × Index)}
    (hnames : (indexes.map Prod.fst).Nodup) :
    ((flushes indexes (s.flushEach indexes).1).map Event.name).Nodup := by
  have hlength : indexes.length ≤ (s.flushEach indexes).1.length :=
    Nat.le_of_eq (length_flushEach s indexes).symm
  have hsame : (flushes indexes (s.flushEach indexes).1).map Event.name =
      indexes.map Prod.fst := by
    calc (flushes indexes (s.flushEach indexes).1).map Event.name
        = ((indexes.zip (s.flushEach indexes).1).map Prod.fst).map Prod.fst := by
          rw [flushes, List.map_map, List.map_map]
          rfl
      _ = indexes.map Prod.fst := by rw [List.map_fst_zip hlength]
  rw [hsame]
  exact hnames

/-- A flush that fails leaves its index unflushed and its file as it was. -/
theorem kept_of_flush_failed (h : Sound s place) {r : Request} {error : Error}
    (hfailed : .flushed name (.error error) ∈ r.events s) :
    Kept name s (r.apply s) ∧ ∃ i, Keyed.find? name s.indexes = some i ∧ i.dirty = true := by
  refine kept_of_failed h (moves_request h r) ?_ hfailed
  rcases events_cases hfailed with ⟨other, -, hloading | hchange | ⟨rfl, hflush⟩⟩ | rfl
  · cases hloading
  · cases hchange
  · have houtcome : (s.flush other).1 = .error error := (Event.flushed.inj hflush).2.symm
    rcases index_cases s other with ⟨e, hc⟩ | ⟨-, ⟨i, hfind, hc⟩ | ⟨i, hfind, hload, hc⟩⟩
    · simp only [Request.events, loading, hc]
      cases Keyed.find? other s.indexes <;> exact List.nodup_nil
    · simp only [Request.events, loading, hc, hfind]
      exact List.nodup_singleton _
    · -- an index that was only loaded now has nothing to flush
      obtain ⟨-, -, hclean⟩ := Index.load_ok hload
      rw [flush_def, hc] at houtcome
      simp only [flushLoaded_def, hclean] at houtcome
      cases houtcome
  · exact nodup_flushes s (Keyed.nodup_keys h.ordered)

/-! ## What the record tells -/

/-- The file of an index is as it was found by the load, a file or none, or it is that of the
entries. -/
def FoundOrWritten (events : List Event) (s : Store) (name : String) (i : Index) : Prop :=
  .loaded name (s.file name) ∈ events ∧
      (s.file name = .error .notFound ∨ ∃ content, s.file name = .ok content) ∨
    s.file name = .ok (.bytes (Index.encode name i.entries))

/-- An index has unflushed changes where the record has one since the last event that settled it.
Where it has none its file is in step. -/
structure Told (events : List Event) (s : Store) (name : String) (i : Index) : Prop where
  flag : i.dirty = true ↔ ChangedSince name events
  file : i.dirty = false → FoundOrWritten events s name i

theorem foundOrWritten_snoc {i : Index} (h : FoundOrWritten events s name i) (e : Event) :
    FoundOrWritten (events ++ [e]) s name i := by
  rcases h with ⟨hfound, hread⟩ | hwritten
  · exact .inl ⟨List.mem_append_left _ hfound, hread⟩
  · exact .inr hwritten

theorem told_of_file {i : Index} (h : Told events s name i) (hfile : s'.file name = s.file name) :
    Told events s' name i := by
  refine ⟨h.flag, ?_⟩
  rw [FoundOrWritten, hfile]
  exact h.file

/-- An event that neither changes an index nor settles it leaves it as unflushed as it was. -/
theorem told_snoc {i : Index} (h : Told events s name i) (hchange : e ≠ .changed name)
    (he : e.name = name → ¬ e.Settles) : Told (events ++ [e]) s name i := by
  refine ⟨?_, fun hclean => foundOrWritten_snoc (h.file hclean) e⟩
  rw [changedSince_snoc]
  constructor
  · intro hdirty
    exact .inr ⟨h.flag.1 hdirty, he⟩
  · rintro (hsame | ⟨hsince, -⟩)
    · exact absurd hsame hchange
    · exact h.flag.2 hsince

/-- An event that settles an index leaves it without unflushed changes. -/
theorem told_settled {i : Index} (hclean : i.dirty = false) (hsettles : e.Settles)
    (hname : e.name = name) (hfile : FoundOrWritten (events ++ [e]) s name i) :
    Told (events ++ [e]) s name i := by
  have hsince : ¬ ChangedSince name (events ++ [e]) := by
    rw [changedSince_snoc]
    rintro (rfl | ⟨-, he⟩)
    · exact hsettles
    · exact he hname hsettles
  refine ⟨⟨fun hdirty => ?_, fun h => absurd h hsince⟩, fun _ => hfile⟩
  rw [hclean] at hdirty
  cases hdirty

/-- An index is loaded from a file, or where there is none. -/
theorem file_of_load {i : Index} (h : Index.load s.disk (s.pathOf name) name = .ok i) :
    s.file name = .error .notFound ∨ ∃ content, s.file name = .ok content := by
  unfold Index.load Index.readAt at h
  rw [file]
  split at h
  · rename_i hread
    exact .inl hread
  · cases h
  · rename_i content hread
    exact .inr ⟨content, hread⟩

theorem told_load {i : Index} (hload : Index.load s.disk (s.pathOf name) name = .ok i) :
    Told (events ++ [.loaded name (s.file name)]) s name i := by
  obtain ⟨-, -, hclean⟩ := Index.load_ok hload
  have hfound : .loaded name (s.file name) ∈ events ++ [.loaded name (s.file name)] :=
    List.mem_append_right _ (List.mem_singleton_self _)
  exact told_settled hclean trivial rfl (.inl ⟨hfound, file_of_load hload⟩)

theorem told_change (s : Store) (name : String) (i : Index) (message : UInt64) (value : Value) :
    Told (events ++ [.changed name]) s name (i.put message value) := by
  have hsince : ChangedSince name (events ++ [.changed name]) := changedSince_snoc.2 (.inl rfl)
  refine ⟨⟨fun _ => hsince, fun _ => rfl⟩, ?_⟩
  intro hclean
  cases hclean

theorem told_flush (h : Sound s place) {i : Index} (hfind : Keyed.find? name s.indexes = some i)
    (htold : Told events s name i) {j : Index}
    (hj : Keyed.find? name (s.flushLoaded name i).2.indexes = some j) :
    Told (events ++ [.flushed name (s.flushLoaded name i).1]) (s.flushLoaded name i).2 name j := by
  obtain ⟨-, ⟨hclean, hnothing⟩ | ⟨-, ⟨⟨error, hfailed⟩, hkept⟩ | ⟨hok, hwritten, hfile⟩⟩⟩ :=
    flushLoaded_cases h hfind
  · -- a clean index is settled once more by a flush that writes nothing
    rw [hnothing] at hj ⊢
    obtain rfl : i = j := Option.some.inj (hfind.symm.trans hj)
    exact told_settled hclean ⟨false, rfl⟩ rfl (foundOrWritten_snoc (htold.file hclean) _)
  · -- a flush that fails settles nothing
    rw [hkept.index, hfind] at hj
    obtain rfl := Option.some.inj hj
    have hopen : ¬ Event.Settles (.flushed name (s.flushLoaded name i).1) := by
      rw [hfailed]
      rintro ⟨written, hw⟩
      cases hw
    exact told_of_file (told_snoc htold nofun fun _ => hopen) hkept.file
  · obtain rfl := Option.some.inj (hwritten.symm.trans hj)
    exact told_settled rfl ⟨true, hok⟩ rfl (.inr hfile)

theorem told_move (h : Sound s place)
    (htold : ∀ name i, Keyed.find? name s.indexes = some i → Told events s name i)
    (hmove : Move s e s') :
    ∀ name i, Keyed.find? name s'.indexes = some i → Told (events ++ [e]) s' name i := by
  intro name i hfind
  by_cases hname : name = e.name
  · subst hname
    cases hmove with
    | load hvalid hunloaded hload =>
      obtain rfl := Option.some.inj ((Keyed.find?_insert_self _ _ _).symm.trans hfind)
      exact told_of_file (told_load hload) rfl
    | change hloaded message value =>
      obtain rfl := Option.some.inj ((Keyed.find?_insert_self _ _ _).symm.trans hfind)
      exact told_change _ _ _ _ _
    | flush hloaded => exact told_flush h hloaded (htold _ _ hloaded) hfind
  · have hkept := kept_of_move h hmove hname
    rw [hkept.index] at hfind
    have hother : e ≠ .changed name := by
      rintro rfl
      exact hname rfl
    have hsame := told_snoc (htold name i hfind) hother fun hsame => absurd hsame.symm hname
    exact told_of_file hsame hkept.file

/-- What is kept true on the way to a store. -/
structure Recorded (start : Store) (events : List Event) (s : Store) : Prop where
  told : ∀ name i, Keyed.find? name s.indexes = some i → Told events s name i
  untouched : ∀ name, .changed name ∉ events → s.file name = start.file name

variable {start : Store}

theorem recorded_moves (h : Sound s place) (hrecorded : Recorded start events s)
    (hmoves : Moves s later s') : Recorded start (events ++ later) s' := by
  induction hmoves generalizing events with
  | nil s =>
    rw [List.append_nil]
    exact hrecorded
  | cons head rest ih =>
    rename_i s t s' e later
    have hnext : Recorded start (events ++ [e]) t := by
      refine ⟨told_move h hrecorded.told head, ?_⟩
      intro name hunchanged
      have hbefore : .changed name ∉ events := fun hmem =>
        hunchanged (List.mem_append_left _ hmem)
      rw [← hrecorded.untouched name hbefore]
      by_contra hne
      -- a file that is written is that of an index with changes, and they are on record
      obtain ⟨-, i, hfind, hdirty⟩ := written_of_file_ne h head hne
      have hsince := (hrecorded.told name i hfind).flag.1 hdirty
      exact hbefore (mem_of_changedSince hsince)
    have hrest := ih (sound_move h head) hnext
    rw [List.append_assoc] at hrest
    exact hrest

theorem recorded_of_reached (h : Sound start place) (hnone : start.indexes = [])
    (hreached : Reached start events s) : Sound s place ∧ Recorded start events s := by
  induction hreached with
  | start =>
    refine ⟨h, ?_, fun _ _ => rfl⟩
    intro name i hfind
    rw [hnone] at hfind
    cases hfind
  | asked hreached r ih =>
    obtain ⟨hsound, hrecorded⟩ := ih
    have hmoves := moves_request hsound r
    exact ⟨sound_moves hsound hmoves, recorded_moves hsound hrecorded hmoves⟩
  | aside hreached hd ih =>
    obtain ⟨hsound, hrecorded⟩ := ih
    refine ⟨sound_disk hsound (hd.entered.trans hsound.entered) hd.files, ?_, ?_⟩
    · intro name i hfind
      exact told_of_file (hrecorded.told name i hfind) (hd.files name)
    · intro name hunchanged
      exact (hd.files name).trans (hrecorded.untouched name hunchanged)

/-- Whatever is asked of a store, and whichever writes fail, the record tells which of its indexes
are unflushed and what the files of the others hold. A flush that fails leaves the index and its
file as they were; a file changes only when its own index is flushed, and never if nothing was put
there. -/
theorem record_tells_indexes {d : Disk} {directory : String}
    (hopen : (openAt d directory).1 = .ok start) (hreached : Reached start events s) :
    (∀ name i, Keyed.find? name s.indexes = some i → Told events s name i) ∧
    (∀ name, .changed name ∉ events → s.file name = start.file name) ∧
    ∀ r : Request,
      (∀ name error, .flushed name (.error error) ∈ r.events s →
        ∃ i, Keyed.find? name s.indexes = some i ∧ i.dirty = true ∧
          Keyed.find? name (r.apply s).indexes = some i ∧
          (r.apply s).file name = s.file name) ∧
      (∀ name, (r.apply s).file name ≠ s.file name → .flushed name (.ok true) ∈ r.events s) ∧
      ∀ name other, r.target? = some name → other ≠ name →
        (r.apply s).file other = s.file other := by
  obtain ⟨-, hnone, place, hopened⟩ := sound_openAt hopen
  obtain ⟨hsound, hrecorded⟩ := recorded_of_reached hopened hnone hreached
  refine ⟨hrecorded.told, hrecorded.untouched, fun r => ?_⟩
  have hwritten (name : String) (hne : (r.apply s).file name ≠ s.file name) :
      .flushed name (.ok true) ∈ r.events s :=
    flushed_of_file_ne hsound (moves_request hsound r) hne
  refine ⟨?_, hwritten, ?_⟩
  · intro name error hfailed
    obtain ⟨hkept, i, hfind, hdirty⟩ := kept_of_flush_failed hsound hfailed
    exact ⟨i, hfind, hdirty, hkept.index.trans hfind, hkept.file⟩
  · intro name other htarget hne
    by_contra hchanged
    exact hne (name_of_mem_events htarget (hwritten other hchanged))

/-- A store with an unflushed value whose file is locked. -/
def locked : Store :=
  let s := Request.apply opened (.operation (.put "a" 1 (.text "x")))
  { s with disk := { s.disk with locked := [["idx", "a.idx"]] } }

/-- The same after a flush, when the file is no longer locked. -/
def unlocked : Store :=
  let s := Request.apply locked (.operation (.flush "a"))
  { s with disk := { s.disk with locked := [] } }

/-- The first flush fails at the rename, and the second does not. -/
theorem record_tells_indexes_locked :
    let flush : Request := .operation (.flush "a")
    (openAt {} "idx").1 = .ok opened ∧
      flush.events locked = [.flushed "a" (.error (.disk .notPermitted))] ∧
      (∃ i, Keyed.find? "a" (flush.apply locked).indexes = some i ∧ i.dirty = true) ∧
      ((flush.apply locked).disk.node? ["idx", "a.idx.tmp"]).isSome = true ∧
      (flush.apply locked).file "a" = locked.file "a" ∧
      ∃ events, Reached opened events (flush.apply unlocked) ∧
        Told events (flush.apply unlocked) "a" ⟨[(1, .text "x")], false⟩ := by
  intro flush
  have hopen : (openAt {} "idx").1 = .ok opened := rfl
  have hput : Reached opened _ (Request.apply opened (.operation (.put "a" 1 (.text "x")))) :=
    .asked .start _
  have hlocked : Reached opened _ locked := hput.aside (spares_locked _ _)
  have hunlocked : Reached opened _ unlocked := (hlocked.asked flush).aside (spares_locked _ _)
  have hevents : flush.events locked = [.flushed "a" (.error (.disk .notPermitted))] := rfl
  have hclean : Keyed.find? "a" (flush.apply unlocked).indexes =
      some ⟨[(1, .text "x")], false⟩ := by decide +kernel
  obtain ⟨-, -, hrequests⟩ := record_tells_indexes hopen hlocked
  obtain ⟨hfails, -⟩ := hrequests flush
  have hfailed : .flushed "a" (.error (.disk .notPermitted)) ∈ flush.events locked := by
    rw [hevents]
    exact List.mem_singleton_self _
  obtain ⟨i, -, hdirty, hfind, hfile⟩ := hfails "a" _ hfailed
  have hwritten : Reached opened _ (flush.apply unlocked) := hunlocked.asked flush
  obtain ⟨htold, -⟩ := record_tells_indexes hopen hwritten
  refine ⟨hopen, hevents, ⟨i, hfind, hdirty⟩, ?_, hfile, _, hwritten, htold "a" _ hclean⟩
  decide +kernel

end Colloquy.Store
