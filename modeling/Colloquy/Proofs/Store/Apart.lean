import Colloquy.Proofs.Index.Writing
import Colloquy.Proofs.Store.Persistence
import Colloquy.Proofs.Store.WarmUp

/-!
The files of two indexes, with those that are written first, are at four different paths right in
the directory of the store.
-/

namespace Colloquy.Store
open Disk

/-- The paths of the files of an index: of its own, and of the one that is written first and takes
its place. -/
def filePaths (s : Store) (name : String) : List Path :=
  [s.pathOf name, Index.stagingPath (s.pathOf name) (Index.fileName name)]

variable {s : Store} {name other : String}

theorem filePaths_eq (hname : Index.isName name = true) :
    s.filePaths name = [Path.ofString s.directory ++ [Index.fileName name],
      (Path.ofString s.directory).steps ++ [Index.stagingName name]] := by
  rw [filePaths, pathOf, Index.stagingPath_file hname]

theorem destinations_eq (hname : Index.isName name = true) :
    (s.filePaths name).map Path.destination =
      [Index.filePlace (Path.ofString s.directory) name,
        Index.stagingPlace (Path.ofString s.directory) name] := by
  obtain ⟨hfile, hfileback⟩ := Index.fileName_isStep name
  obtain ⟨hstaging, hstagingback⟩ := Index.stagingName_isStep name
  rw [filePaths_eq hname, List.map_cons, List.map_singleton,
    Path.destination_append_file _ hfile hfileback,
    Path.destination_append_file _ hstaging hstagingback, Path.destination_steps]
  rfl

/-- Four names in one directory lead to four places. -/
theorem nodup_children (place : Path) (hne : name ≠ other) :
    ([place ++ [Index.fileName name], place ++ [Index.stagingName name]] ++
      [place ++ [Index.fileName other], place ++ [Index.stagingName other]]).Nodup := by
  have hfile : Index.fileName name ≠ Index.fileName other := fun h => hne (Index.fileName_inj h)
  have hstaging : Index.stagingName name ≠ Index.stagingName other :=
    fun h => hne (Index.stagingName_inj h)
  have hcross (a b : String) : Index.fileName a ≠ Index.stagingName b :=
    Index.fileName_ne_stagingName a b
  simp [hfile, hstaging, hcross, Ne.symm (hcross _ _)]

theorem isChild_of_mem (hname : Index.isName name = true) {path : Path}
    (hpath : path ∈ s.filePaths name) : path.IsChild s.directory := by
  have hchild {file : String} (hslash : '/' ∉ file.toList) (hstep : Path.isStep file = true)
      (hback : file ≠ "..") {directory : Path}
      (hsteps : directory.steps = (Path.ofString s.directory).steps) :
      (directory ++ [file]).IsChild s.directory := by
    have hgoal : directory.destination = (Path.ofString s.directory).destination := by
      rw [← Path.destination_steps, hsteps, Path.destination_steps]
    refine ⟨file, hslash, hstep, hback, ?_, ?_, ?_⟩
    · rw [Path.steps_append_file _ hstep, Path.steps_join _ hslash hstep, hsteps]
    · rw [Path.steps_append_file _ hstep, hsteps]
    · rw [Path.destination_append_file _ hstep hback, hgoal]
  rw [filePaths_eq hname, List.mem_pair] at hpath
  rcases hpath with rfl | rfl
  · obtain ⟨hstep, hback⟩ := Index.fileName_isStep name
    exact hchild (Index.not_mem_append hname (by decide) (by decide)) hstep hback rfl
  · obtain ⟨hstep, hback⟩ := Index.stagingName_isStep name
    exact hchild (Index.not_mem_append hname (by decide) (by decide)) hstep hback (steps_steps _)

/-- On the disk a flush is a write of the index, or nothing. -/
theorem disk_flush (s : Store) (name : String) :
    (s.flush name).2.disk = s.disk ∨ Index.isName name = true ∧ ∃ entries,
      (s.flush name).2.disk = (Index.writeAt s.disk (s.pathOf name) name entries).2 := by
  obtain ⟨hdisk, hdirectory⟩ := index_frame s name
  rw [flush_def]
  rcases hindex : s.index name with ⟨e | i, t⟩
  · rw [hindex] at hdisk
    exact .inl hdisk
  · rw [hindex] at hdisk hdirectory
    have hpath : t.pathOf name = s.pathOf name := by rw [pathOf, pathOf, hdirectory]
    simp only
    rcases flushLoaded_outcome t name i with
      ⟨-, h⟩ | ⟨-, ⟨fault, d, hwrite, h⟩ | ⟨d, hwrite, h⟩⟩
    · rw [h]
      exact .inl hdisk
    · refine .inr ⟨(find?_of_index hindex).1, i.entries, ?_⟩
      rw [h, ← hpath, ← hdisk, hwrite]
    · refine .inr ⟨(find?_of_index hindex).1, i.entries, ?_⟩
      rw [h, ← hpath, ← hdisk, hwrite]

/-- A flush changes the places of the two files of its index only. -/
theorem changedAt_flush (s : Store) (hname : Index.isName name = true) :
    ChangedAt (Path.ofString s.directory) ((s.filePaths name).map Path.destination) s.disk
      (s.flush name).2.disk := by
  rw [destinations_eq hname]
  rcases disk_flush s name with hdisk | ⟨-, entries, hdisk⟩
  · rw [hdisk]
    exact changedAt_refl _ _ _
  · rw [hdisk]
    exact Index.changedAt_writeAt _ _ hname entries

theorem spared_flush (s : Store) (hother : Index.isName other = true) (hne : other ≠ name) :
    Index.Spared (Path.ofString s.directory) other s.disk (s.flush name).2.disk := by
  rcases disk_flush s name with hdisk | ⟨hname, entries, hdisk⟩
  · rw [hdisk]
    exact Index.spared_refl _ _ _
  · rw [hdisk]
    exact Index.spared_writeAt hname hother hne entries

/-- The paths of two indexes lead to four places. -/
theorem nodup_destinations (s : Store) (hname : Index.isName name = true)
    (hother : Index.isName other = true) (hne : name ≠ other) :
    ((s.filePaths name).map Path.destination ++ (s.filePaths other).map Path.destination).Nodup := by
  rw [destinations_eq hname, destinations_eq hother]
  exact nodup_children _ hne

/-- In a directory that is there, what a path of an index leads to is read as it was where nothing
has changed at its place. -/
theorem read_of_changedAt {d : Disk} {places : List Path} {place : Path}
    (hname : Index.isName name = true) (hkeeps : Keeps s.disk d)
    (hchanged : ChangedAt (Path.ofString s.directory) places s.disk d)
    (henter : s.disk.enter [] (Path.ofString s.directory) = .ok place) {path : Path}
    (hpath : path ∈ s.filePaths name) (haway : path.destination ∉ places) :
    d.read path = s.disk.read path := by
  have hread {directory : Path} {file : String} (hstep : Path.isStep file = true)
      (hback : file ≠ "..") (hplace : s.disk.enter [] directory = .ok place)
      (haway : (directory ++ [file]).destination ∉ places) :
      d.read (directory ++ [file]) = s.disk.read (directory ++ [file]) := by
    rw [Path.destination_append_file _ hstep hback, destination_of_enter hplace] at haway
    have hnode := hchanged.there place henter _ haway
    exact read_file (enter_of_keeps hkeeps hplace) hplace hstep hback hnode
  rw [filePaths_eq hname, List.mem_pair] at hpath
  rcases hpath with rfl | rfl
  · obtain ⟨hstep, hback⟩ := Index.fileName_isStep name
    exact hread hstep hback henter haway
  · obtain ⟨hstep, hback⟩ := Index.stagingName_isStep name
    exact hread hstep hback ((enter_steps _ _ _).trans henter) haway

/-- The file of an index and the one that is written first are at two paths right in the directory
of the store, and those of another index are at two others. So a flush writes in the directory only,
which it makes if it is missing, and it changes nothing that another index reads or writes. -/
theorem files_apart (s : Store) {name other : String} (hname : Index.isName name = true)
    (hother : Index.isName other = true) (hne : name ≠ other) :
    (s.filePaths name ++ s.filePaths other).Nodup ∧
    ((s.filePaths name ++ s.filePaths other).map Path.destination).Nodup ∧
    (∀ path ∈ s.filePaths name ++ s.filePaths other, path.IsChild s.directory) ∧
    ChangedAt (Path.ofString s.directory) ((s.filePaths name).map Path.destination) s.disk
      (s.flush name).2.disk ∧
    Index.Spared (Path.ofString s.directory) other s.disk (s.flush name).2.disk ∧
    ∀ place, s.disk.enter [] (Path.ofString s.directory) = .ok place →
      ∀ path ∈ s.filePaths other, (s.flush name).2.disk.read path = s.disk.read path := by
  have hnodup := nodup_destinations s hname hother hne
  have hchanged := changedAt_flush s hname
  have hspared := spared_flush s hother hne.symm
  rw [← List.map_append] at hnodup
  refine ⟨hnodup.of_map, hnodup, ?_, hchanged, hspared, ?_⟩
  · intro path hpath
    rcases List.mem_append.1 hpath with hpath | hpath
    · exact isChild_of_mem hname hpath
    · exact isChild_of_mem hother hpath
  · intro place henter path hpath
    refine read_of_changedAt hother hspared.keeps hchanged henter hpath ?_
    rw [List.map_append] at hnodup
    exact fun h => List.disjoint_of_nodup_append hnodup h (List.mem_map_of_mem hpath)

/-- An index that has changed, and one that has been written and is named as the file of the other
is. -/
def namesakes : Store :=
  opened.after [.put "a.idx" 1 (.number 1), .flush "a.idx", .put "a" 2 (.number 2)]

theorem files_apart_namesakes :
    Index.isName "a" = true ∧ Index.isName "a.idx" = true ∧ "a" ≠ "a.idx" ∧
      namesakes.filePaths "a" ++ namesakes.filePaths "a.idx" =
        [["idx", "a.idx"], ["idx", "a.idx.tmp"], ["idx", "a.idx.idx"], ["idx", "a.idx.idx.tmp"]] ∧
      (namesakes.filePaths "a" ++ namesakes.filePaths "a.idx").Nodup ∧
      (∀ path ∈ namesakes.filePaths "a" ++ namesakes.filePaths "a.idx", path.IsChild "idx") ∧
      (namesakes.flush "a").1 = .ok true ∧
      (namesakes.disk.node? ["idx", "a.idx.idx"]).isSome = true ∧
      (namesakes.flush "a").2.disk.read ["idx", "a.idx.idx"] =
        namesakes.disk.read ["idx", "a.idx.idx"] := by
  have ha : Index.isName "a" = true := by decide
  have hb : Index.isName "a.idx" = true := by decide
  have hne : "a" ≠ "a.idx" := by decide
  have hthere : namesakes.disk.enter [] (Path.ofString namesakes.directory) = .ok ["idx"] := by
    decide +kernel
  obtain ⟨hnodup, -, hchild, -, -, hread⟩ := files_apart namesakes ha hb hne
  have hmem : ["idx", "a.idx.idx"] ∈ namesakes.filePaths "a.idx" := by decide +kernel
  refine ⟨ha, hb, hne, ?_, hnodup, hchild, rfl, ?_, hread ["idx"] hthere _ hmem⟩
  · decide +kernel
  · decide +kernel

end Colloquy.Store
