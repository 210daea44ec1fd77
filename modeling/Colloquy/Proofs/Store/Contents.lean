import Colloquy.Proofs.Outcome
import Colloquy.Proofs.Store.Persistence
import Colloquy.Proofs.Store.WarmUp

/-!
The entries of a store from one run to the next. A flush moves entries to the files and changes
none, so after a flush without a failure a store that is opened on the disk finds the same ones.
-/

namespace Colloquy.Store
open Colloquy.Disk

variable {s : Store} {place : Path}

/-- The entries of the index of a name. -/
def entries (s : Store) (name : String) : Except Error (List Index.Entry) :=
  (s.index name).1.map Index.entries

theorem get?_entries (s : Store) (name : String) (message : UInt64) :
    (s.get? name message).1 = (s.entries name).map (Keyed.find? message) := by
  rw [get?_eq, entries]
  cases (s.index name).1 <;> rfl

theorem sorted_entries (h : Sound s place) {name : String} {all : List Index.Entry}
    (hall : s.entries name = .ok all) : Keyed.Sorted all := by
  obtain ⟨i, hi, rfl⟩ := Except.map_eq_ok.1 hall
  exact sorted_of_index h hi

/-- What an index has is told by what is loaded, and by the file where nothing is. -/
theorem entries_congr (s t : Store) (hdirectory : t.directory = s.directory)
    (henter : s.disk.enter [] (Path.ofString s.directory) = .ok place)
    (henter' : t.disk.enter [] (Path.ofString s.directory) = .ok place) {name : String}
    (hfind : (Keyed.find? name t.indexes).map Index.entries =
      (Keyed.find? name s.indexes).map Index.entries)
    (hnode : Keyed.find? name s.indexes = none →
      t.disk.node? (place ++ [Index.fileName name]) =
        s.disk.node? (place ++ [Index.fileName name])) :
    t.entries name = s.entries name := by
  unfold entries
  by_cases hname : Index.isName name = true
  · cases hs : Keyed.find? name s.indexes with
    | some i =>
      rw [hs] at hfind
      obtain ⟨j, hj, hentries⟩ := Option.map_eq_some_iff.1 hfind
      rw [index, index, if_pos hname, if_pos hname, hj, hs]
      exact congrArg Except.ok hentries
    | none =>
      rw [hs] at hfind
      have ht := Option.map_eq_none_iff.1 hfind
      have hload := Index.load_congr henter' henter (hnode hs)
      rw [index_of_unloaded hname hs, index_of_unloaded hname ht, pathOf, pathOf, hdirectory, hload]
  · rw [index, index, if_neg hname, if_neg hname]

/-- A store with nothing loaded does not see a change beside the file of an index. -/
theorem entries_changesOnly {d d' : Disk} {directory : String} {file : Option Path}
    (henter : d.enter [] (Path.ofString directory) = .ok place) (hchanges : ChangesOnly file d d')
    {name : String} (hapart : file ≠ some (place ++ [Index.fileName name])) :
    entries { disk := d', directory } name = entries { disk := d, directory } name :=
  entries_congr { disk := d, directory } { disk := d', directory } rfl henter
    (enter_of_keeps hchanges.1 henter) rfl fun _ => hchanges.2 _ hapart

theorem flushLoaded_entries (h : Sound s place) {name : String} {i : Index}
    (hfind : Keyed.find? name s.indexes = some i) (other : String) :
    (s.flushLoaded name i).2.entries other = s.entries other := by
  have hname := h.named name i hfind
  have hkeeps := Index.keeps_writeAt h.entered hname i.entries
  have hnode : Keyed.find? other s.indexes = none →
      (Index.writeAt s.disk (s.pathOf name) name i.entries).2.node?
        (place ++ [Index.fileName other]) = s.disk.node? (place ++ [Index.fileName other]) := by
    intro hnone
    -- an index that is not loaded is not the one that is written
    refine Index.writeAt_other h.entered hname i.entries fun he => ?_
    rw [he, hfind] at hnone
    cases hnone
  have henter := enter_of_keeps hkeeps h.entered
  rw [← pathOf] at henter
  rcases flushLoaded_outcome s name i with
    ⟨-, hc⟩ | ⟨-, ⟨fault, d, hwrite, hc⟩ | ⟨d, hwrite, hc⟩⟩
  · rw [hc]
  · rw [hwrite] at hnode henter
    rw [hc]
    exact entries_congr s { s with disk := d } rfl h.entered henter rfl hnode
  · rw [hwrite] at hnode henter
    rw [hc]
    refine entries_congr s ⟨d, s.directory, _⟩ rfl h.entered henter ?_ hnode
    by_cases hother : other = name
    · rw [hother, hfind, Keyed.find?_insert_self]
      rfl
    · rw [Keyed.find?_insert_of_ne hother]

theorem flush_entries (h : Sound s place) (name other : String) :
    (s.flush name).2.entries other = s.entries other := by
  have hindex := sound_index h name
  have hsame : (s.index name).2.entries other = s.entries other := by
    rw [entries, entries, index_index]
  rw [flush_def]
  split
  · rename_i e s' hc
    rw [hc] at hsame
    exact hsame
  · rename_i i s' hc
    rw [hc] at hindex hsame
    exact (flushLoaded_entries hindex (find?_of_index hc).2 other).trans hsame

theorem find?_flushLoaded {name other : String} {i : Index} (hother : other ≠ name) :
    Keyed.find? other (s.flushLoaded name i).2.indexes = Keyed.find? other s.indexes := by
  rcases flushLoaded_outcome s name i with
    ⟨-, hc⟩ | ⟨-, ⟨fault, d, -, hc⟩ | ⟨d, -, hc⟩⟩
  · rw [hc]
  · rw [hc]
  · rw [hc]
    exact Keyed.find?_insert_of_ne hother _ _

theorem flushEach_entries (h : Sound s place) {indexes : List (String × Index)}
    (hordered : Keyed.Sorted indexes)
    (hloaded : ∀ e ∈ indexes, Keyed.find? e.1 s.indexes = some e.2) (name : String) :
    (s.flushEach indexes).2.entries name = s.entries name := by
  induction indexes generalizing s with
  | nil => rfl
  | cons head rest ih =>
    obtain ⟨first, i⟩ := head
    obtain ⟨hfirst, hrest⟩ := List.pairwise_cons.1 hordered
    have hfind := hloaded (first, i) List.mem_cons_self
    have hsound := sound_flushLoaded h (h.named first i hfind) (h.sorted first i hfind)
    rw [flushEach_cons, ← flushLoaded_entries h hfind]
    refine ih hsound hrest fun e he => ?_
    -- in order, so no index comes twice and the rest is loaded as it was
    have hne : e.1 ≠ first := by
      intro heq
      have hself : compare first first = .eq := Std.ReflCmp.compare_self
      have hless := hfirst e he
      rw [heq, hself] at hless
      cases hless
    rw [find?_flushLoaded hne]
    exact hloaded e (List.mem_cons_of_mem _ he)

theorem flushAll_entries (h : Sound s place) (name : String) :
    s.flushAll.2.entries name = s.entries name :=
  flushEach_entries h h.ordered (fun _ he => Keyed.find?_of_mem h.ordered he) name

/-- After a flush without a failure, what can be read again is there for the next store. -/
theorem entries_reopened (h : Sound s place) {written : Nat} (hflush : s.flushAll.1 = .ok written)
    {name : String} {all : List Index.Entry} (hall : s.entries name = .ok all)
    (hreadable : Index.Readable all) (hregular : ∀ e ∈ all, e.2.Regular) :
    entries { disk := s.flushAll.2.disk, directory := s.directory } name = .ok all := by
  have hflushed := flushAll_entries h name
  have hdirectory : s.flushAll.2.directory = s.directory := flushEach_directory s s.indexes
  obtain ⟨-, hloads⟩ :=
    index_unloaded (sound_flushAll h) (clean_of_flushAll hflush) name
  rw [hall] at hflushed
  obtain ⟨i, hindex, rfl⟩ := Except.map_eq_ok.1 hflushed
  have hagain := (hloads i hindex).1 hreadable
  rw [hdirectory] at hagain
  rw [entries, hagain]
  exact congrArg Except.ok (Index.map_writtenEntry hregular)

theorem flushLoaded_database (h : Sound s place) {name : String} (hname : Index.isName name = true)
    {i : Index} {other : Path} {rows : Source.Rows}
    (hnode : (s.flushLoaded name i).2.disk.node? other = some (.file (.database rows))) :
    s.disk.node? other = some (.file (.database rows)) := by
  have hwritten : (Index.writeAt s.disk (s.pathOf name) name i.entries).2.node? other =
      some (.file (.database rows)) → s.disk.node? other = some (.file (.database rows)) :=
    Index.writeAt_database h.entered hname i.entries
  rcases flushLoaded_outcome s name i with
    ⟨-, hc⟩ | ⟨-, ⟨fault, d, hwrite, hc⟩ | ⟨d, hwrite, hc⟩⟩
  · rw [hc] at hnode
    exact hnode
  · rw [hc] at hnode
    rw [hwrite] at hwritten
    exact hwritten hnode
  · rw [hc] at hnode
    rw [hwrite] at hwritten
    exact hwritten hnode

theorem flushEach_database (h : Sound s place) {indexes : List (String × Index)}
    (hall : ∀ e ∈ indexes, Index.isName e.1 = true ∧ Keyed.Sorted e.2.entries) {other : Path}
    {rows : Source.Rows}
    (hnode : (s.flushEach indexes).2.disk.node? other = some (.file (.database rows))) :
    s.disk.node? other = some (.file (.database rows)) := by
  induction indexes generalizing s with
  | nil => exact hnode
  | cons head rest ih =>
    obtain ⟨hname, hsorted⟩ := hall head List.mem_cons_self
    rw [flushEach_cons] at hnode
    have hrest := fun e he => hall e (List.mem_cons_of_mem _ he)
    exact flushLoaded_database h hname (ih (sound_flushLoaded h hname hsorted) hrest hnode)

/-- A flush writes no database. -/
theorem flushAll_database (h : Sound s place) {other : Path} {rows : Source.Rows}
    (hnode : s.flushAll.2.disk.node? other = some (.file (.database rows))) :
    s.disk.node? other = some (.file (.database rows)) := by
  refine flushEach_database h (fun e he => ?_) hnode
  have hfind := Keyed.find?_of_mem h.ordered (show (e.1, e.2) ∈ s.indexes from he)
  exact ⟨h.named _ _ hfind, h.sorted _ _ hfind⟩

end Colloquy.Store
