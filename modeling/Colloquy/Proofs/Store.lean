import Colloquy.Proofs.Index.File
import Colloquy.Store

/-!
What every operation keeps true of a store: its directory is there, its indexes are in order, and an
index without unflushed changes is in step with its file.
-/

namespace Colloquy.Store
open Colloquy.Disk

/-- All that asking for an index can come to. -/
theorem index_cases (s : Store) (name : String) :
    (∃ e, s.index name = (.error e, s)) ∨
    Index.isName name = true ∧
      ((∃ i, Keyed.find? name s.indexes = some i ∧ s.index name = (.ok i, s)) ∨
        ∃ i, Keyed.find? name s.indexes = none ∧ Index.load s.disk (s.pathOf name) name = .ok i ∧
          s.index name = (.ok i, { s with indexes := Keyed.insert name i s.indexes })) := by
  unfold index
  split
  · rename_i hname
    split
    · rename_i i hfind
      exact .inr ⟨hname, .inl ⟨i, hfind, rfl⟩⟩
    · rename_i hfind
      split
      · exact .inl ⟨_, rfl⟩
      · rename_i i hload
        exact .inr ⟨hname, .inr ⟨i, hfind, hload, rfl⟩⟩
  · exact .inl ⟨_, rfl⟩

theorem index_eq_error {s : Store} {name : String} {e : Error}
    (hname : Index.isName name = true) (h : (s.index name).1 = .error e) :
    Index.load s.disk (s.pathOf name) name = .error e := by
  rw [index, if_pos hname] at h
  split at h
  · cases h
  · split at h
    · rename_i hload
      rw [hload]
      exact congrArg Except.error (Except.error.inj h)
    · cases h

/-- An index that is not loaded is that of its file. -/
theorem index_of_unloaded {s : Store} {name : String} (hname : Index.isName name = true)
    (hfind : Keyed.find? name s.indexes = none) :
    (s.index name).1 = Index.load s.disk (s.pathOf name) name := by
  rw [index, if_pos hname, hfind]
  simp only
  cases Index.load s.disk (s.pathOf name) name <;> rfl

/-- A store whose directory leads to a place. -/
structure Sound (s : Store) (place : Path) : Prop where
  walkable : pathFault? (Path.ofString s.directory) = none
  entered : s.disk.enter [] (Path.ofString s.directory) = .ok place
  ordered : Keyed.Sorted s.indexes
  named : ∀ name i, Keyed.find? name s.indexes = some i → Index.isName name = true
  sorted : ∀ name i, Keyed.find? name s.indexes = some i → Keyed.Sorted i.entries
  inStep : ∀ name i, Keyed.find? name s.indexes = some i → i.dirty = false →
    Index.Holds s.disk (s.pathOf name) name i.entries

variable {s : Store} {place : Path}

theorem sound_unloaded {d : Disk} {directory : String}
    (hwalk : pathFault? (Path.ofString directory) = none)
    (henter : d.enter [] (Path.ofString directory) = .ok place) :
    Sound { disk := d, directory } place := by
  refine ⟨hwalk, henter, List.Pairwise.nil, ?_, ?_, ?_⟩
  all_goals
    intro name i hfind
    cases hfind

theorem sound_openAt {d : Disk} {directory : String} (h : (openAt d directory).1 = .ok s) :
    s.directory = directory ∧ s.indexes = [] ∧ ∃ place, Sound s place := by
  unfold openAt at h
  split at h
  · cases h
  · rename_i made hmade
    obtain rfl := Except.ok.inj h
    obtain ⟨hwalk, place, hplace⟩ := enter_of_createDirectories hmade
    exact ⟨rfl, rfl, place, sound_unloaded hwalk hplace⟩

/-- Where the directory of a store still is, it opens again. -/
theorem openAt_again (h : Sound s place) :
    openAt s.disk s.directory = (.ok { disk := s.disk, directory := s.directory }, s.disk) := by
  rw [openAt, createDirectories_of_enter h.walkable h.entered]

/-- An index may take its place on a disk that keeps the files of the others. -/
theorem sound_insert (h : Sound s place) {d : Disk} (hkeeps : Keeps s.disk d) {name : String}
    (hname : Index.isName name = true)
    (hother : ∀ other, other ≠ name → d.node? (place ++ [Index.fileName other]) =
      s.disk.node? (place ++ [Index.fileName other]))
    {i : Index} (hsorted : Keyed.Sorted i.entries)
    (hclean : i.dirty = false → Index.Holds d (s.pathOf name) name i.entries) :
    Sound { s with disk := d, indexes := Keyed.insert name i s.indexes } place := by
  -- an index of the new store is the one that was put in, or it was there before
  have hfind (n : String) (j : Index)
      (hj : Keyed.find? n (Keyed.insert name i s.indexes) = some j) :
      n = name ∧ j = i ∨ n ≠ name ∧ Keyed.find? n s.indexes = some j := by
    by_cases hn : n = name
    · subst hn
      rw [Keyed.find?_insert_self] at hj
      exact .inl ⟨rfl, (Option.some.inj hj).symm⟩
    · rw [Keyed.find?_insert_of_ne hn] at hj
      exact .inr ⟨hn, hj⟩
  have henter := enter_of_keeps hkeeps h.entered
  refine ⟨h.walkable, henter, Keyed.sorted_insert h.ordered, fun n j hj => ?_, fun n j hj => ?_,
    fun n j hj hdirty => ?_⟩
  · rcases hfind n j hj with ⟨rfl, -⟩ | ⟨-, hj⟩
    · exact hname
    · exact h.named n j hj
  · rcases hfind n j hj with ⟨-, rfl⟩ | ⟨-, hj⟩
    · exact hsorted
    · exact h.sorted n j hj
  · rcases hfind n j hj with ⟨rfl, rfl⟩ | ⟨hn, hj⟩
    · exact hclean hdirty
    · have hload := Index.load_congr henter h.entered (hother n hn)
      exact Index.holds_congr hload (h.inStep n j hj hdirty)

/-- Another disk may be put in whose files of indexes are the same. -/
theorem sound_disk (h : Sound s place) {d : Disk}
    (henter : d.enter [] (Path.ofString s.directory) = .ok place)
    (hread : ∀ name, d.read (s.pathOf name) = s.disk.read (s.pathOf name)) :
    Sound { s with disk := d } place := by
  refine ⟨h.walkable, henter, h.ordered, h.named, h.sorted, fun n j hj hdirty => ?_⟩
  have hload := Index.load_of_read (hread n) n
  exact Index.holds_congr hload (h.inStep n j hj hdirty)

theorem sound_load (h : Sound s place) {name : String} (hname : Index.isName name = true)
    {i : Index} (hload : Index.load s.disk (s.pathOf name) name = .ok i) :
    Sound { s with indexes := Keyed.insert name i s.indexes } place := by
  obtain ⟨hsorted, -, -⟩ := Index.load_ok hload
  exact sound_insert h (keeps_refl s.disk) hname (fun _ _ => rfl) hsorted
    fun _ => Index.holds_loaded hload

theorem sound_change (h : Sound s place) {name : String} {i : Index}
    (hfind : Keyed.find? name s.indexes = some i) (message : UInt64) (value : Value) :
    Sound { s with indexes := Keyed.insert name (i.put message value) s.indexes } place := by
  have hsorted : Keyed.Sorted (i.put message value).entries :=
    Keyed.sorted_insert (h.sorted name i hfind)
  refine sound_insert h (keeps_refl s.disk) (h.named name i hfind) (fun _ _ => rfl) hsorted ?_
  -- the entry is unflushed, so nothing is owed about the file
  intro hclean
  cases hclean

theorem sound_index (h : Sound s place) (name : String) : Sound (s.index name).2 place := by
  rcases index_cases s name with ⟨e, hc⟩ | ⟨hname, ⟨i, -, hc⟩ | ⟨i, -, hload, hc⟩⟩
  · rw [hc]
    exact h
  · rw [hc]
    exact h
  · rw [hc]
    exact sound_load h hname hload

/-- An index that was asked for is there from then on. -/
theorem find?_of_index {s' : Store} {name : String} {i : Index}
    (h : s.index name = (.ok i, s')) :
    Index.isName name = true ∧ Keyed.find? name s'.indexes = some i := by
  rcases index_cases s name with ⟨e, hc⟩ | ⟨hname, ⟨j, hfind, hc⟩ | ⟨j, -, -, hc⟩⟩
  · rw [hc] at h
    cases (Prod.mk.inj h).1
  · rw [hc] at h
    obtain ⟨hj, rfl⟩ := Prod.mk.inj h
    rw [← Except.ok.inj hj]
    exact ⟨hname, hfind⟩
  · rw [hc] at h
    obtain ⟨hj, rfl⟩ := Prod.mk.inj h
    rw [← Except.ok.inj hj]
    exact ⟨hname, Keyed.find?_insert_self name j s.indexes⟩

theorem sound_put (h : Sound s place) (name : String) (message : UInt64) (value : Value) :
    Sound (s.put name message value).2 place := by
  have hindex := sound_index h name
  rw [put_def]
  split
  · rename_i e s' hc
    rw [hc] at hindex
    exact hindex
  · rename_i i s' hc
    rw [hc] at hindex
    exact sound_change hindex (find?_of_index hc).2 message value

/-- All that flushing a loaded index comes to. -/
theorem flushLoaded_outcome (s : Store) (name : String) (i : Index) :
    i.dirty = false ∧ s.flushLoaded name i = (.ok false, s) ∨
    i.dirty = true ∧
      ((∃ fault d, Index.writeAt s.disk (s.pathOf name) name i.entries = (.error fault, d) ∧
          s.flushLoaded name i = (.error (.disk fault), { s with disk := d })) ∨
        ∃ d, Index.writeAt s.disk (s.pathOf name) name i.entries = (.ok (), d) ∧
          s.flushLoaded name i = (.ok true,
            { s with disk := d, indexes := Keyed.insert name { i with dirty := false } s.indexes })
      ) := by
  rw [flushLoaded_def]
  cases i.dirty with
  | false => exact .inl ⟨rfl, rfl⟩
  | true =>
    rw [if_pos rfl]
    rcases Index.writeAt s.disk (s.pathOf name) name i.entries with ⟨fault | _, d⟩
    · exact .inr ⟨rfl, .inl ⟨fault, d, rfl, rfl⟩⟩
    · exact .inr ⟨rfl, .inr ⟨d, rfl, rfl⟩⟩

theorem sound_flushLoaded (h : Sound s place) {name : String} (hname : Index.isName name = true)
    {i : Index} (hsorted : Keyed.Sorted i.entries) : Sound (s.flushLoaded name i).2 place := by
  have hkeeps := Index.keeps_writeAt h.entered hname i.entries
  have hother := fun other (hne : other ≠ name) =>
    Index.writeAt_other h.entered hname i.entries hne
  rcases flushLoaded_outcome s name i with
    ⟨-, hc⟩ | ⟨-, ⟨fault, d, hwrite, hc⟩ | ⟨d, hwrite, hc⟩⟩
  · rw [hc]
    exact h
  · -- the index stays as unflushed as it was, and only its staging file may be new
    have hfailed := Index.writeAt_failed h.entered hname hwrite
    rw [← pathOf, hwrite] at hkeeps
    have henter := enter_of_keeps hkeeps h.entered
    rw [hc]
    refine sound_disk h henter fun n => Index.read_fileName henter h.entered ?_
    by_cases hn : n = name
    · rw [hn]
      exact hfailed
    · have hsame := hother n hn
      rw [← pathOf, hwrite] at hsame
      exact hsame
  · obtain ⟨htarget, hnode⟩ := Index.writeAt_written h.entered hname hwrite
    rw [← pathOf, hwrite] at hkeeps
    rw [hc]
    refine sound_insert h hkeeps hname (fun n hn => ?_) hsorted fun _ => ?_
    · have hsame := hother n hn
      rw [← pathOf, hwrite] at hsame
      exact hsame
    · exact Index.holds_written (enter_of_keeps hkeeps h.entered) hsorted htarget hnode

theorem sound_flush (h : Sound s place) (name : String) : Sound (s.flush name).2 place := by
  have hindex := sound_index h name
  rw [flush_def]
  split
  · rename_i e s' hc
    rw [hc] at hindex
    exact hindex
  · rename_i i s' hc
    rw [hc] at hindex
    obtain ⟨hname, hfind⟩ := find?_of_index hc
    exact sound_flushLoaded hindex hname (hindex.sorted name i hfind)

theorem sound_flushEach (h : Sound s place) {indexes : List (String × Index)}
    (hall : ∀ e ∈ indexes, Index.isName e.1 = true ∧ Keyed.Sorted e.2.entries) :
    Sound (s.flushEach indexes).2 place := by
  induction indexes generalizing s with
  | nil => exact h
  | cons head rest ih =>
    obtain ⟨hname, hsorted⟩ := hall head List.mem_cons_self
    rw [flushEach_cons]
    exact ih (sound_flushLoaded h hname hsorted) fun e he => hall e (List.mem_cons_of_mem _ he)

theorem sound_flushAll (h : Sound s place) : Sound s.flushAll.2 place := by
  refine sound_flushEach h fun e he => ?_
  have hfind := Keyed.find?_of_mem h.ordered (show (e.1, e.2) ∈ s.indexes from he)
  exact ⟨h.named _ _ hfind, h.sorted _ _ hfind⟩

end Colloquy.Store
