import Colloquy.Proofs.Index.Writing
import Colloquy.Proofs.Store.States

/-!
The staging file has a longer name than the file that is looked for, so there are names with which
an index can be loaded and changed, but never written.
-/

namespace Colloquy.Disk

theorem byteSize_sublist {short path : Path} (hsub : short.Sublist path) :
    Path.byteSize short ≤ Path.byteSize path := by
  let add (size : Nat) (step : String) : Nat := size + step.utf8ByteSize + 1
  -- the sizes are compared from any two starts, as each step adds to both or to the second
  have hfold (start more : Nat) (hle : start ≤ more) :
      short.foldl add start ≤ path.foldl add more := by
    induction hsub generalizing start more with
    | slnil => exact hle
    | cons step _ ih => exact ih start (add more step) (by simp only [add]; omega)
    | cons_cons step _ ih => exact ih (add start step) (add more step) (by simp only [add]; omega)
  exact Nat.sub_le_sub_right (hfold 0 0 (Nat.le_refl 0)) 1

/-- A path that can be walked can be walked without some of its steps. -/
theorem pathFault?_sublist {short path : Path} (hsub : short.Sublist path)
    (h : pathFault? path = none) : pathFault? short = none := by
  have hsize := byteSize_sublist hsub
  unfold pathFault? at h ⊢
  split at h
  · cases h
  rename_i hnul
  split at h
  · cases h
  rename_i hlong
  have hshort : ¬ (short.any fun step => '\x00' ∈ step.toList) = true := by
    intro hany
    obtain ⟨step, hstep, hin⟩ := List.any_eq_true.1 hany
    exact hnul (List.any_eq_true.2 ⟨step, hsub.subset hstep, hin⟩)
  rw [if_neg hshort, if_neg (by omega)]

/-- A name that is too long is refused as such, wherever the file would be. -/
theorem target_long {directory place : Path} {file : String}
    (hwalk : pathFault? directory = none) (hfile : '\x00' ∉ file.toList)
    (hlong : nameLimit < file.utf8ByteSize) :
    target directory place file = .error .nameTooLong := by
  have hnul : ¬ ((directory ++ [file]).any fun step => '\x00' ∈ step.toList) = true := by
    unfold pathFault? at hwalk
    split at hwalk
    · cases hwalk
    · rename_i hnul
      simpa [hfile] using hnul
  unfold target pathFault?
  rw [if_neg hnul]
  split
  · rename_i hfault
    split at hfault
    · rw [← Option.some.inj hfault]
    · cases hfault
  · rw [if_pos hlong]

/-- Marks and single dots in a path may only stand in the way of a file. -/
theorem obstacle?_steps {d : Disk} {directory place : Path} {file : String}
    (h : d.obstacle? directory place file = none) :
    d.obstacle? (Path.steps directory) place file = none := by
  have hgoal : target (Path.steps directory) place file = .ok (place ++ [file]) := by
    have htarget := (obstacle?_eq_none h).1
    unfold target at htarget ⊢
    cases hfault : pathFault? (directory ++ [file]) with
    | some fault =>
      rw [hfault] at htarget
      cases htarget
    | none =>
      have hsub : (Path.steps directory ++ [file]).Sublist (directory ++ [file]) :=
        List.filter_sublist.append_right [file]
      rw [hfault] at htarget
      rw [pathFault?_sublist hsub hfault]
      exact htarget
  rw [obstacle?, (obstacle?_eq_none h).1] at h
  rw [obstacle?, hgoal]
  exact h

end Colloquy.Disk

namespace Colloquy.Index
open Colloquy.Disk

theorem utf8ByteSize_fileName (name : String) :
    (fileName name).utf8ByteSize = name.utf8ByteSize + 4 := by
  rw [fileName, String.utf8ByteSize_append]
  rfl

theorem utf8ByteSize_stagingName (name : String) :
    (stagingName name).utf8ByteSize = name.utf8ByteSize + 8 := by
  rw [stagingName, String.utf8ByteSize_append]
  rfl

theorem nul_not_mem_fileName {name : String} (hname : isName name = true) :
    '\x00' ∉ (fileName name).toList := not_mem_append hname (by decide) (by decide)

/-- The staging file of a long name is in the way of every write. -/
theorem writeAt_long {d : Disk} {directory place : Path} {name : String}
    (hwalk : pathFault? (Path.steps directory) = none) (henter : d.enter [] directory = .ok place)
    (hname : isName name = true) (hlong : 247 < name.utf8ByteSize) (entries : List Entry) :
    writeAt d (directory ++ [fileName name]) name entries = (.error .nameTooLong, d) := by
  have hstaging : nameLimit < (stagingName name).utf8ByteSize := by
    rw [utf8ByteSize_stagingName, nameLimit]
    omega
  rw [writeAt_entered henter hname, obstacle?,
    target_long hwalk (nul_not_mem_stagingName hname) hstaging]

/-- So it cannot be written on any disk. -/
theorem writeAt_long_fails {name : String} (hname : isName name = true)
    (hlong : 247 < name.utf8ByteSize) (d : Disk) (directory : Path) (entries : List Entry) :
    (writeAt d (directory ++ [fileName name]) name entries).1 ≠ .ok () := by
  rcases hmade : d.createDirectories (Path.steps directory) with ⟨fault | _, made⟩
  · rw [writeAt_unmade hmade]
    nofun
  · -- the directory is there by the time that the staging file is written
    obtain ⟨hwalk, -⟩ := enter_of_createDirectories hmade
    obtain ⟨place, hplace⟩ := enter_of_made hmade
    rw [writeAt_made hmade, writeAt_long hwalk hplace hname hlong]
    nofun

/-- A short name has no file that is too long, so what can be written at all is written. -/
theorem writeAt_short {d : Disk} {directory place : Path} {name : String}
    (henter : d.enter [] directory = .ok place) (hname : isName name = true)
    (hwrites : ∀ file ∈ [fileName name, stagingName name],
      d.obstacle? directory place file = none) (entries : List Entry) :
    (writeAt d (directory ++ [fileName name]) name entries).1 = .ok () := by
  have hfile := hwrites (fileName name) (by simp)
  have hstaging := hwrites (stagingName name) (by simp)
  rw [writeAt_entered henter hname, obstacle?_steps hstaging, hfile]

end Colloquy.Index

namespace Colloquy.Store
open Colloquy.Disk

/-- The directory of a store is there, and of the two files that an index is written with those
whose names are no longer than any name may be can be written. -/
structure Roomy (s : Store) (name : String) : Prop where
  entered : ∃ place, s.disk.enter [] (Path.ofString s.directory) = .ok place
  writes : ∀ file ∈ [Index.fileName name, Index.stagingName name],
    file.utf8ByteSize ≤ nameLimit → ∀ content, ∃ d,
      s.disk.write (Path.ofString s.directory ++ [file]) content = .ok d

variable {s : Store} {name : String} {i : Index}

/-- After a put the flush of an index is that of the index with the value. -/
theorem flush_put (h : (s.index name).1 = .ok i) (message : UInt64) (value : Value) :
    (s.put name message value).1 = .ok () ∧
      (s.put name message value).2.flush name =
        (s.put name message value).2.flushLoaded name (i.put message value) := by
  have hname := isName_of_index h
  rw [put_eq, h]
  refine ⟨rfl, ?_⟩
  rw [flush_def, index, if_pos hname, Keyed.find?_insert_self]

theorem obstacle?_of_roomy {place : Path} (h : Roomy s name)
    (henter : s.disk.enter [] (Path.ofString s.directory) = .ok place)
    (hshort : name.utf8ByteSize ≤ 247) :
    ∀ file ∈ [Index.fileName name, Index.stagingName name],
      s.disk.obstacle? (Path.ofString s.directory) place file = none := by
  intro file hfile
  have hfits : file.utf8ByteSize ≤ nameLimit ∧ Path.isStep file = true ∧ file ≠ ".." := by
    rw [List.mem_pair] at hfile
    rcases hfile with rfl | rfl
    · rw [Index.utf8ByteSize_fileName, nameLimit]
      exact ⟨by omega, Index.fileName_isStep name⟩
    · rw [Index.utf8ByteSize_stagingName, nameLimit]
      exact ⟨by omega, Index.stagingName_isStep name⟩
  obtain ⟨hsize, hstep, hback⟩ := hfits
  obtain ⟨d, hwrite⟩ := h.writes file hfile hsize (.bytes [])
  rw [write_file henter hstep hback] at hwrite
  cases hobstacle : s.disk.obstacle? (Path.ofString s.directory) place file with
  | none => rfl
  | some fault =>
    rw [hobstacle] at hwrite
    cases hwrite

/-- The index of a long name is never written, whatever becomes of its store. -/
theorem flush_long (hname : Index.isName name = true) (hlong : 247 < name.utf8ByteSize)
    (t : Store) : (t.flush name).1 ≠ .ok true := by
  intro hflush
  rw [flush_def] at hflush
  split at hflush
  · cases hflush
  rename_i j u _
  rcases flushLoaded_outcome u name j with ⟨-, h⟩ | ⟨-, ⟨fault, d, -, h⟩ | ⟨d, hwrite, -⟩⟩
  · rw [h] at hflush
    cases hflush
  · rw [h] at hflush
    cases hflush
  · have hfails := Index.writeAt_long_fails hname hlong u.disk (Path.ofString u.directory) j.entries
    rw [← pathOf, hwrite] at hfails
    exact hfails rfl

/-- A value put into an index is written by the next flush just where its name is of 247 bytes or
fewer: its staging file has a name of eight bytes more, and no name may have more than 255. An index
with a longer name can be loaded and changed where the name of its file, which has four bytes more,
is not too long, but it cannot be flushed then or ever. -/
theorem flush_after_put (h : Arises s) (hindex : (s.index name).1 = .ok i) (hroomy : Roomy s name)
    (message : UInt64) (value : Value) :
    let changed := (s.put name message value).2
    (s.put name message value).1 = .ok () ∧
      (name.utf8ByteSize ≤ 247 → (changed.flush name).1 = .ok true) ∧
      (247 < name.utf8ByteSize →
        changed.flush name = (.error (.disk .nameTooLong), changed) ∧
          Keyed.find? name changed.indexes = some (i.put message value) ∧
          ∀ t : Store, (t.flush name).1 ≠ .ok true) := by
  intro changed
  have hname := isName_of_index hindex
  have hwalk := (wellFormed_of_arises h).walkable
  obtain ⟨place, henter⟩ := hroomy.entered
  obtain ⟨hput, hflush⟩ := flush_put hindex message value
  obtain ⟨hdisk, hdirectory⟩ := put_frame s name message value
  -- a put is not felt on the disk, so the write is one on the disk that the index was loaded from
  have hpath : changed.pathOf name = s.pathOf name := by
    rw [pathOf, pathOf, hdirectory]
  have hwrites : Index.writeAt changed.disk (changed.pathOf name) name (i.put message value).entries
      = Index.writeAt s.disk (s.pathOf name) name (i.put message value).entries := by
    rw [hpath, hdisk]
  have hfind : Keyed.find? name changed.indexes = some (i.put message value) := by
    simp only [changed, put_eq, hindex]
    exact Keyed.find?_insert_self _ _ _
  rw [hflush]
  rcases flushLoaded_outcome changed name (i.put message value) with
    ⟨hclean, -⟩ | ⟨-, ⟨fault, d, hfault, hloaded⟩ | ⟨d, hwritten, hloaded⟩⟩
  · cases hclean
  · -- a write that failed: that of a short name does not, that of a long one does so only this way
    refine ⟨hput, fun hshort => ?_, fun hlong => ⟨?_, hfind, flush_long hname hlong⟩⟩
    · have hwrite := Index.writeAt_short henter hname (obstacle?_of_roomy hroomy henter hshort)
        (i.put message value).entries
      rw [← pathOf, ← hwrites, hfault] at hwrite
      cases hwrite
    · have hwrite := Index.writeAt_long (pathFault?_sublist List.filter_sublist hwalk) henter hname
        hlong (i.put message value).entries
      rw [← pathOf, ← hwrites, hfault, ← hdisk] at hwrite
      obtain ⟨hlongfault, hsame⟩ := Prod.mk.inj hwrite
      rw [hloaded, Except.error.inj hlongfault, hsame]
  · -- a write that went through is not that of a long name
    refine ⟨hput, fun _ => by rw [hloaded], fun hlong => ?_⟩
    have hnever := Index.writeAt_long_fails hname hlong s.disk (Path.ofString s.directory)
      (i.put message value).entries
    rw [← pathOf, ← hwrites, hwritten] at hnever
    exact absurd rfl hnever

/-! ## In a directory without files -/

theorem obstacle?_opened {file : String} (hnul : '\x00' ∉ file.toList)
    (hsize : file.utf8ByteSize ≤ nameLimit) :
    opened.disk.obstacle? ["idx"] ["idx"] file = none := by
  have hwalk : pathFault? (["idx"] ++ [file]) = none := by
    have hbytes : Path.byteSize ["idx", file] = 3 + 1 + file.utf8ByteSize := by
      change 0 + 3 + 1 + file.utf8ByteSize + 1 - 1 = _
      omega
    have hlimit : ¬ pathLimit < Path.byteSize ["idx", file] := by
      rw [nameLimit] at hsize
      rw [hbytes, pathLimit, rootSize]
      omega
    have hany : ¬ (["idx", file].any fun step => '\x00' ∈ step.toList) = true := by
      simpa using hnul
    rw [List.singleton_append, pathFault?, if_neg hany, if_neg hlimit]
  have htarget : target ["idx"] ["idx"] file = .ok ["idx", file] := by
    rw [target, hwalk, if_neg (Nat.not_lt.2 hsize)]
    rfl
  have hnode : opened.disk.node? ["idx", file] ≠ some .directory := by
    simp [opened, node?]
  rw [obstacle?, htarget]
  simp only [if_neg hnode]
  rfl

theorem roomy_opened (hname : Index.isName name = true) : Roomy opened name := by
  have henter : opened.disk.enter [] (Path.ofString opened.directory) = .ok ["idx"] := rfl
  refine ⟨⟨["idx"], henter⟩, fun file hfile hsize content => ?_⟩
  have hwrite {file : String} (hfile : '\x00' ∉ file.toList) (hsize : file.utf8ByteSize ≤ nameLimit)
      (hstep : Path.isStep file = true ∧ file ≠ "..") :
      ∃ d, opened.disk.write (Path.ofString opened.directory ++ [file]) content = .ok d := by
    rw [write_file henter hstep.1 hstep.2, show Path.ofString opened.directory = ["idx"] from rfl,
      obstacle?_opened hfile hsize]
    exact ⟨_, rfl⟩
  rw [List.mem_pair] at hfile
  rcases hfile with rfl | rfl
  · exact hwrite (Index.nul_not_mem_fileName hname) hsize (Index.fileName_isStep name)
  · exact hwrite (Index.nul_not_mem_stagingName hname) hsize (Index.stagingName_isStep name)

/-- Where there is no file an index is empty, if its file could be there. -/
theorem index_opened (hname : Index.isName name = true)
    (hsize : (Index.fileName name).utf8ByteSize ≤ nameLimit) :
    (opened.index name).1 = .ok ⟨[], false⟩ := by
  obtain ⟨hstep, hback⟩ := Index.fileName_isStep name
  have henter : opened.disk.enter [] ["idx"] = .ok ["idx"] := rfl
  obtain ⟨htarget, -⟩ := obstacle?_eq_none
    (obstacle?_opened (Index.nul_not_mem_fileName hname) hsize)
  have hnone : opened.disk.node? (["idx"] ++ [Index.fileName name]) = none := by
    simp [opened, node?]
  have hread : opened.disk.read (opened.pathOf name) = .error .notFound := by
    rw [pathOf, show Path.ofString opened.directory = ["idx"] from rfl, Disk.read, lookup,
      locate_file henter hstep hback, htarget]
    simp only [hnone]
  rw [index_of_unloaded hname rfl, Index.load, Index.readAt, hread]
  rfl

/-- A name of so many letters. -/
def letters : Nat → String
  | 0 => ""
  | n + 1 => (letters n).push 'a'

theorem utf8ByteSize_letters (n : Nat) : (letters n).utf8ByteSize = n := by
  induction n with
  | zero => rfl
  | succ n ih =>
    rw [letters, String.utf8ByteSize_push, ih]
    rfl

theorem toList_letters (n : Nat) : (letters n).toList = List.replicate n 'a' := by
  induction n with
  | zero => rfl
  | succ n ih => rw [letters, String.toList_push, ih, List.replicate_succ']

theorem isName_letters (n : Nat) : Index.isName (letters (n + 1)) = true := by
  have hall : ∀ c ∈ List.replicate (n + 1) 'a', Query.isVariableChar c = true := by
    intro c hc
    rw [List.eq_of_mem_replicate hc]
    decide
  rw [List.replicate_succ] at hall
  rw [Index.isName, toList_letters, List.replicate_succ]
  simp only [List.all_eq_true.2 hall]
  decide

/-- Up to 247 letters are written; 248 are loaded and changed, in the same directory, but not
written. -/
theorem flush_after_put_letters :
    (opened.index (letters 247)).1 = .ok ⟨[], false⟩ ∧
      ((opened.put (letters 247) 1 (.number 1)).2.flush (letters 247)).1 = .ok true ∧
      (opened.index (letters 248)).1 = .ok ⟨[], false⟩ ∧
      ((opened.put (letters 248) 1 (.number 1)).2.flush (letters 248)).1 =
        .error (.disk .nameTooLong) := by
  have hopen : (openAt {} "idx").1 = .ok opened := rfl
  have hindex {n : Nat} (hn : n < 251) : (opened.index (letters (n + 1))).1 = .ok ⟨[], false⟩ := by
    refine index_opened (isName_letters n) ?_
    rw [Index.utf8ByteSize_fileName, utf8ByteSize_letters, nameLimit]
    omega
  have hshort : (opened.index (letters 247)).1 = .ok ⟨[], false⟩ := hindex (by omega)
  have hlong : (opened.index (letters 248)).1 = .ok ⟨[], false⟩ := hindex (by omega)
  obtain ⟨-, hwritten, -⟩ :=
    flush_after_put (.opened hopen) hshort (roomy_opened (isName_letters 246)) 1 (.number 1)
  obtain ⟨-, -, hfailed⟩ :=
    flush_after_put (.opened hopen) hlong (roomy_opened (isName_letters 247)) 1 (.number 1)
  rw [utf8ByteSize_letters] at hwritten hfailed
  obtain ⟨herror, -⟩ := hfailed (by omega)
  refine ⟨hshort, hwritten (by omega), hlong, ?_⟩
  rw [herror]

/-- An index with 248 letters for a name can be changed, in a directory where files can be written,
and is not written. -/
theorem accepted_name_not_written :
    (opened.index (letters 248)).1 = .ok ⟨[], false⟩ ∧ Roomy opened (letters 248) ∧
      (opened.put (letters 248) 1 (.number 1)).1 = .ok () ∧
      ((opened.put (letters 248) 1 (.number 1)).2.flush (letters 248)).1 ≠ .ok true := by
  have hname : Index.isName (letters 248) = true := isName_letters 247
  have hindex : (opened.index (letters 248)).1 = .ok ⟨[], false⟩ := by
    refine index_opened hname ?_
    rw [Index.utf8ByteSize_fileName, utf8ByteSize_letters, nameLimit]
    omega
  have hlong : 247 < (letters 248).utf8ByteSize := by
    rw [utf8ByteSize_letters]
    omega
  have hput := (flush_put hindex 1 (.number 1)).1
  exact ⟨hindex, roomy_opened hname, hput, flush_long hname hlong _⟩

end Colloquy.Store
