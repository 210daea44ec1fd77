import Colloquy.Index
import Colloquy.Proofs.Disk
import Colloquy.Proofs.Index.Encoding
import Colloquy.Proofs.Keyed

/-!
Files of indexes in a directory. Writing one touches two places, the file and its staging sibling,
and neither is the file of another index.
-/

namespace Colloquy.Index
open Colloquy.Disk

/-- The name of the file that an index is written to first. -/
def stagingName (name : String) : String := name ++ ".idx.tmp"

theorem isStep_append {name suffix : String} (h : 2 < suffix.toList.length) :
    Path.isStep (name ++ suffix) = true ∧ name ++ suffix ≠ ".." := by
  have hne (short : String) (hshort : short.toList.length ≤ 2) : name ++ suffix ≠ short := by
    intro he
    have hlength := congrArg (fun s : String => s.toList.length) he
    simp only [String.toList_append, List.length_append] at hlength
    omega
  refine ⟨?_, hne ".." (by decide)⟩
  simp only [Path.isStep, Bool.and_eq_true, decide_eq_true_eq]
  exact ⟨hne "" (by decide), hne "." (by decide)⟩

theorem fileName_isStep (name : String) :
    Path.isStep (fileName name) = true ∧ fileName name ≠ ".." := isStep_append (by decide)

theorem stagingName_isStep (name : String) :
    Path.isStep (stagingName name) = true ∧ stagingName name ≠ ".." := isStep_append (by decide)

theorem fileName_inj {a b : String} (h : fileName a = fileName b) : a = b := by
  have hlist := congrArg String.toList h
  rw [fileName, fileName, String.toList_append, String.toList_append] at hlist
  exact String.toList_inj.1 (List.append_cancel_right hlist)

theorem fileName_ne_stagingName (a b : String) : fileName a ≠ stagingName b := by
  intro h
  -- one ends in 'x', the other in 'p'
  have hlast := congrArg (fun s : String => s.toList.getLast?) h
  simp only [fileName, stagingName, String.toList_append] at hlast
  rw [List.getLast?_append_of_ne_nil _ (by decide), List.getLast?_append_of_ne_nil _ (by decide)]
    at hlast
  exact absurd hlast (by decide)

theorem place_ne (place : Path) {a b : String} (h : a ≠ b) : place ++ [a] ≠ place ++ [b] := by
  intro he
  exact h (List.cons.inj (List.append_cancel_left he)).1

theorem ne_dot_of_isName {name : String} (h : isName name = true) :
    name ≠ "." ∧ name.toList ≠ [] := by
  unfold isName at h
  split at h
  · cases h
  · rename_i c rest hlist
    simp only [Bool.and_eq_true, decide_eq_true_eq] at h
    refine ⟨?_, by simp [hlist]⟩
    rintro rfl
    have hdot : c = '.' := (List.cons.inj hlist).1.symm
    exact h.1 hdot

/-- A character that names cannot have is in a continued name only if the continuation has it. -/
theorem not_mem_append {name suffix : String} (h : isName name = true) {c : Char}
    (hc : Query.isVariableChar c = false) (hsuffix : c ∉ suffix.toList) :
    c ∉ (name ++ suffix).toList := by
  unfold isName at h
  split at h
  · cases h
  · rename_i first rest hlist
    simp only [Bool.and_eq_true] at h
    have hname : c ∉ name.toList := by
      intro hmem
      rw [hlist] at hmem
      have hchar := List.all_eq_true.1 h.2 _ hmem
      rw [hc] at hchar
      cases hchar
    rw [String.toList_append, List.mem_append, not_or]
    exact ⟨hname, hsuffix⟩

/-- The name of the staging file can be walked to. -/
theorem nul_not_mem_stagingName {name : String} (h : isName name = true) :
    '\x00' ∉ (stagingName name).toList := not_mem_append h (by decide) (by decide)

/-- The stem of the name of a file is the name of its index. -/
theorem stem_fileName {name : String} (h : name.toList ≠ []) :
    Path.stem (fileName name) = name := by
  have hreversed : (fileName name).toList.reverse = 'x' :: 'd' :: 'i' :: '.' ::
      name.toList.reverse := by
    rw [fileName, String.toList_append, List.reverse_append]
    rfl
  have hempty : name.toList.reverse.isEmpty = false := by simp [h]
  rw [Path.stem, hreversed]
  simp [List.dropWhile, hempty]

theorem steps_file (directory : Path) (name : String) :
    Path.steps (directory ++ [fileName name]) = Path.steps directory ++ [fileName name] :=
  Path.steps_append_file directory (fileName_isStep name).1

theorem parent_file (directory : Path) (name : String) :
    Path.parent (directory ++ [fileName name]) = Path.steps directory := by
  rw [Path.parent, steps_file, List.dropLast_concat]

theorem stagingPath_file {name : String} (h : isName name = true) (directory : Path) :
    stagingPath (directory ++ [fileName name]) (fileName name) =
      Path.steps directory ++ [stagingName name] := by
  obtain ⟨hdot, hempty⟩ := ne_dot_of_isName h
  have hstem := stem_fileName hempty
  have hgap : ¬ (Path.stem (fileName name) = "." ∧
      (!Path.isMarked (directory ++ [fileName name])) = true) := by
    rintro ⟨he, -⟩
    exact hdot (hstem ▸ he)
  rw [stagingPath, if_neg (fileName_isStep name).2]
  simp only [Bool.and_eq_true, decide_eq_true_eq, if_neg hgap]
  rw [hstem, parent_file]
  rfl

section Written
variable {d : Disk} {directory place : Path} {name : String} {entries : List Entry}

/-- The node that the file of an index is. -/
def node (name : String) (entries : List Entry) : Node := .file (.bytes (encode name entries))

/-- What comes of a write in a directory that is there. It is refused for the staging file before
anything is written, or for the file after that. -/
theorem writeAt_entered (henter : d.enter [] directory = .ok place) (hname : isName name = true)
    (entries : List Entry) :
    writeAt d (directory ++ [fileName name]) name entries =
      match d.obstacle? (Path.steps directory) place (stagingName name) with
      | some fault => (.error fault, d)
      | none =>
        let staged := d.put (place ++ [stagingName name]) (node name entries)
        match d.obstacle? directory place (fileName name) with
        | some fault => (.error fault, staged)
        | none =>
          (.ok (), (staged.clear (place ++ [stagingName name])).put (place ++ [fileName name])
            (node name entries)) := by
  obtain ⟨hfile, hfileback⟩ := fileName_isStep name
  obtain ⟨hstaging, hstagingback⟩ := stagingName_isStep name
  have hsteps : d.enter [] (Path.steps directory) = .ok place := by
    rw [enter_steps]
    exact henter
  have hlast : (Path.steps (directory ++ [fileName name])).getLast? = some (fileName name) := by
    rw [steps_file, List.getLast?_concat]
  rw [writeAt, parent_file, hlast]
  cases hfault : pathFault? (Path.steps directory) with
  | some fault =>
    -- a path that is refused as such is refused for the staging file as well
    have hrefused : d.createDirectories (Path.steps directory) = (.error fault, d) := by
      rw [createDirectories, hfault]
    have hobstacle : d.obstacle? (Path.steps directory) place (stagingName name) = some fault := by
      rw [obstacle?, target, pathFault?_append hfault (nul_not_mem_stagingName hname)]
    rw [hrefused, hobstacle]
  | none =>
    rw [createDirectories_of_enter hfault hsteps]
    simp only [replace, stagingPath_file hname, write_file hsteps hstaging hstagingback]
    cases hobstacle : d.obstacle? (Path.steps directory) place (stagingName name) with
    | some fault => rfl
    | none =>
      obtain ⟨htarget, hfree⟩ := obstacle?_eq_none hobstacle
      -- the staging file takes no directory away, so the rename finds it where it was put
      have hkeeps := keeps_put hfree (node name entries)
      have hspot : (d.put (place ++ [stagingName name]) (node name entries)).locate
          (Path.steps directory ++ [stagingName name]) = .ok (place ++ [stagingName name]) := by
        rw [locate_file (enter_of_keeps hkeeps hsteps) hstaging hstagingback]
        exact htarget
      have hread := read_of_node hspot (node?_put_self d (by simp) (node name entries))
      have hsame : (d.put (place ++ [stagingName name]) (node name entries)).obstacle? directory
          place (fileName name) = d.obstacle? directory place (fileName name) := by
        have hother := place_ne place (fileName_ne_stagingName name name)
        exact obstacle?_congr rfl (node?_put_of_ne d hother (node name entries))
      have hrename := rename_file hread hspot (enter_of_keeps hkeeps henter) hfile hfileback
      rw [hsame] at hrename
      simp only [node] at hrename ⊢
      rw [hrename]
      cases d.obstacle? directory place (fileName name) <;> rfl

/-- All that writing an index can come to: nothing is written, or only the staging file is, or the
file is replaced. -/
theorem writeAt_cases (henter : d.enter [] directory = .ok place) (hname : isName name = true)
    (entries : List Entry) :
    (∃ fault, writeAt d (directory ++ [fileName name]) name entries = (.error fault, d)) ∨
    d.node? (place ++ [stagingName name]) ≠ some .directory ∧
      ((∃ fault, writeAt d (directory ++ [fileName name]) name entries =
          (.error fault, d.put (place ++ [stagingName name]) (node name entries))) ∨
        d.node? (place ++ [fileName name]) ≠ some .directory ∧
        target directory place (fileName name) = .ok (place ++ [fileName name]) ∧
        writeAt d (directory ++ [fileName name]) name entries =
          (.ok (), ((d.put (place ++ [stagingName name]) (node name entries)).clear
            (place ++ [stagingName name])).put (place ++ [fileName name])
              (node name entries))) := by
  rw [writeAt_entered henter hname]
  cases hstaging : d.obstacle? (Path.steps directory) place (stagingName name) with
  | some fault => exact .inl ⟨fault, rfl⟩
  | none =>
    refine .inr ⟨(obstacle?_eq_none hstaging).2, ?_⟩
    cases hfile : d.obstacle? directory place (fileName name) with
    | some fault => exact .inl ⟨fault, rfl⟩
    | none =>
      obtain ⟨htarget, hfree⟩ := obstacle?_eq_none hfile
      exact .inr ⟨hfree, htarget, rfl⟩

/-- Writing an index takes no directory away. -/
theorem keeps_writeAt (henter : d.enter [] directory = .ok place) (hname : isName name = true)
    (entries : List Entry) :
    Keeps d (writeAt d (directory ++ [fileName name]) name entries).2 := by
  rcases writeAt_cases henter hname entries with ⟨fault, h⟩ | ⟨hstaging, ⟨fault, h⟩ | ⟨hfile, -, h⟩⟩
  · rw [h]
    exact keeps_refl d
  · rw [h]
    exact keeps_put hstaging _
  · rw [h]
    have hne := place_ne place (fileName_ne_stagingName name name)
    have hstaged : (d.put (place ++ [stagingName name]) (node name entries)).node?
        (place ++ [stagingName name]) ≠ some .directory := by
      rw [node?_put_self d (by simp)]
      simp [node]
    -- the three steps of a write that goes through: stage, clear, replace
    refine keeps_trans (keeps_put hstaging _) (keeps_trans (keeps_clear hstaged) (keeps_put ?_ _))
    rw [node?_clear_of_ne _ hne, node?_put_of_ne _ hne]
    exact hfile

/-- The file of another index stays as it is. -/
theorem writeAt_other (henter : d.enter [] directory = .ok place) (hname : isName name = true)
    (entries : List Entry) {other : String} (hother : other ≠ name) :
    (writeAt d (directory ++ [fileName name]) name entries).2.node? (place ++ [fileName other]) =
      d.node? (place ++ [fileName other]) := by
  have hstaging := place_ne place (fileName_ne_stagingName other name)
  have hfile := place_ne place fun h => hother (fileName_inj h)
  rcases writeAt_cases henter hname entries with ⟨fault, h⟩ | ⟨-, ⟨fault, h⟩ | ⟨-, -, h⟩⟩
  · rw [h]
  · rw [h, node?_put_of_ne _ hstaging]
  · rw [h, node?_put_of_ne _ hfile, node?_clear_of_ne _ hstaging, node?_put_of_ne _ hstaging]

/-- What is written are files of bytes: a database that is there afterwards was there before. -/
theorem writeAt_database (henter : d.enter [] directory = .ok place) (hname : isName name = true)
    (entries : List Entry) {other : Path} {rows : Source.Rows}
    (h : (writeAt d (directory ++ [fileName name]) name entries).2.node? other =
      some (.file (.database rows))) : d.node? other = some (.file (.database rows)) := by
  have hput (d : Disk) (spot : String)
      (hput : (d.put (place ++ [spot]) (node name entries)).node? other =
        some (.file (.database rows))) :
      d.node? other = some (.file (.database rows)) := by
    by_cases hother : other = place ++ [spot]
    · rw [hother, node?_put_self d (by simp)] at hput
      cases hput
    · rw [node?_put_of_ne d hother] at hput
      exact hput
  rcases writeAt_cases henter hname entries with ⟨fault, hc⟩ | ⟨-, ⟨fault, hc⟩ | ⟨-, -, hc⟩⟩
  · rw [hc] at h
    exact h
  · rw [hc] at h
    exact hput _ _ h
  · rw [hc] at h
    have hcleared := hput _ _ h
    by_cases hother : other = place ++ [stagingName name]
    · rw [hother, node?_clear_self _ (by simp)] at hcleared
      cases hcleared
    · rw [node?_clear_of_ne _ hother] at hcleared
      exact hput _ _ hcleared

/-- A write that fails leaves the file as it was. -/
theorem writeAt_failed (henter : d.enter [] directory = .ok place) (hname : isName name = true)
    {fault : Fault} {d' : Disk}
    (h : writeAt d (directory ++ [fileName name]) name entries = (.error fault, d')) :
    d'.node? (place ++ [fileName name]) = d.node? (place ++ [fileName name]) := by
  have hstaging := place_ne place (fileName_ne_stagingName name name)
  rcases writeAt_cases henter hname entries with ⟨_, hc⟩ | ⟨-, ⟨_, hc⟩ | ⟨-, -, hc⟩⟩
  · rw [hc] at h
    rw [← (Prod.mk.inj h).2]
  · rw [hc] at h
    rw [← (Prod.mk.inj h).2, node?_put_of_ne _ hstaging]
  · rw [hc] at h
    cases (Prod.mk.inj h).1

theorem writeAt_written (henter : d.enter [] directory = .ok place) (hname : isName name = true)
    {d' : Disk} (h : writeAt d (directory ++ [fileName name]) name entries = (.ok (), d')) :
    target directory place (fileName name) = .ok (place ++ [fileName name]) ∧
      d'.node? (place ++ [fileName name]) = some (node name entries) := by
  rcases writeAt_cases henter hname entries with ⟨_, hc⟩ | ⟨-, ⟨_, hc⟩ | ⟨-, htarget, hc⟩⟩
  · rw [hc] at h
    cases (Prod.mk.inj h).1
  · rw [hc] at h
    cases (Prod.mk.inj h).1
  · rw [hc] at h
    rw [← (Prod.mk.inj h).2]
    exact ⟨htarget, node?_put_self _ (by simp) _⟩

end Written

/-- What is read as the file of an index depends on one node only. -/
theorem read_fileName {d d' : Disk} {directory place : Path}
    (henter : d.enter [] directory = .ok place) (henter' : d'.enter [] directory = .ok place)
    {name : String}
    (hnode : d.node? (place ++ [fileName name]) = d'.node? (place ++ [fileName name])) :
    d.read (directory ++ [fileName name]) = d'.read (directory ++ [fileName name]) := by
  obtain ⟨hfile, hback⟩ := fileName_isStep name
  exact read_file henter henter' hfile hback hnode

theorem load_of_read {d d' : Disk} {path : Path} (h : d.read path = d'.read path) (name : String) :
    load d path name = load d' path name := by
  rw [load, load, readAt, readAt, h]

section Content
variable {d : Disk} {path : Path} {name : String} {content : Content}

theorem load_of_decode {entries : List Entry} (hread : d.read path = .ok content)
    (hdecode : decode name content.data = .ok entries) :
    load d path name = .ok ⟨Keyed.insertAll entries [], false⟩ := by
  rw [load, readAt, hread]
  simp only [hdecode]
  rfl

theorem load_of_refused {cause : Corruption} (hread : d.read path = .ok content)
    (hcause : decode name content.data = .error cause) :
    load d path name = .error (.corrupted name cause) := by
  rw [load, readAt, hread]
  simp only [hcause]
  rfl

end Content

/-- A file is not loaded because of what is in it or because of the disk. -/
theorem load_eq_error {d : Disk} {path : Path} {name : String} {e : Error}
    (h : load d path name = .error e) :
    (∃ cause, e = .corrupted name cause) ∨ ∃ fault, e = .disk fault := by
  unfold load readAt at h
  split at h
  · cases h
  · exact .inr ⟨_, (Except.error.inj h).symm⟩
  · split at h
    · exact .inl ⟨_, (Except.error.inj h).symm⟩
    · cases h

/-- Loading an index depends on its file only. -/
theorem load_congr {d d' : Disk} {directory place : Path}
    (henter : d.enter [] directory = .ok place) (henter' : d'.enter [] directory = .ok place)
    {name : String}
    (hnode : d.node? (place ++ [fileName name]) = d'.node? (place ++ [fileName name])) :
    load d (directory ++ [fileName name]) name = load d' (directory ++ [fileName name]) name :=
  load_of_read (read_fileName henter henter' hnode) name

/-- A database is not the file of an index. -/
theorem load_database {d : Disk} {directory place : Path}
    (henter : d.enter [] directory = .ok place) {name : String} {rows : Source.Rows}
    (hnode : d.node? (place ++ [fileName name]) = some (.file (.database rows))) :
    ∃ e, load d (directory ++ [fileName name]) name = .error e := by
  obtain ⟨hfile, hback⟩ := fileName_isStep name
  cases htarget : target directory place (fileName name) with
  | error fault =>
    have hread : d.read (directory ++ [fileName name]) = .error fault := by
      rw [Disk.read, lookup, locate_file henter hfile hback, htarget]
    have hfault : fault ≠ .notFound := by
      rintro rfl
      exact target_ne_notFound directory place (fileName name) htarget
    rw [load, readAt, hread]
    cases fault <;> first | exact absurd rfl hfault | exact ⟨_, rfl⟩
  | ok goal =>
    have hread : d.read (directory ++ [fileName name]) = .ok (.database rows) := by
      refine read_of_node ?_ hnode
      rw [locate_file henter hfile hback, htarget, target_eq_ok htarget]
    -- the bytes of a database have no newline, so there is no header
    have hmark : (databaseMark.span (· ≠ Json.byte '\n')).2 = [] := by decide +kernel
    have hdecode : decode name databaseMark = .error .missingHeader := by
      rw [decode]
      simp only [hmark]
    exact ⟨_, load_of_refused hread hdecode⟩

/-- Entries in order are in the order of their file already. -/
theorem sortEntries_sorted {entries : List Entry} (hs : Keyed.Sorted entries) :
    sortEntries entries = entries := by
  refine List.mergeSort_of_pairwise (hs.imp fun {a b} h => ?_)
  have hlt : a.1 < b.1 := Std.compare_eq_lt.1 h
  exact decide_eq_true (UInt64.le_of_lt hlt)

theorem sorted_map_writtenEntry {entries : List Entry} (hs : Keyed.Sorted entries) :
    Keyed.Sorted (entries.map writtenEntry) := Keyed.sorted_map (fun _ => Value.asWritten) hs

/-- What is loaded is put together from entries that were read, of which there may be none. -/
theorem load_eq_ok {d : Disk} {path : Path} {name : String} {i : Index}
    (h : load d path name = .ok i) : ∃ entries, i = ⟨Keyed.insertAll entries [], false⟩ ∧
      Readable entries ∧ ∀ e ∈ entries, e.2.Regular := by
  unfold load readAt at h
  split at h
  · cases h
    exact ⟨[], rfl, ⟨by decide, by simp⟩, by simp⟩
  · cases h
  · split at h
    · cases h
    · rename_i entries hdecode
      cases h
      exact ⟨entries, rfl, readable_of_decode hdecode, regular_of_decode hdecode⟩

/-- An index that was just loaded is in order, in step with its file, and can be loaded again. -/
theorem load_ok {d : Disk} {path : Path} {name : String} {i : Index}
    (h : load d path name = .ok i) :
    Keyed.Sorted i.entries ∧ Readable i.entries ∧ i.dirty = false := by
  obtain ⟨entries, rfl, ⟨hlength, hdepth⟩, -⟩ := load_eq_ok h
  have hempty : Keyed.Sorted ([] : List Entry) := List.Pairwise.nil
  -- loading may drop repeated numbers, which keeps the entries readable
  refine ⟨Keyed.sorted_insertAll hempty, ⟨?_, fun e he => ?_⟩, rfl⟩
  · have hle := Keyed.length_insertAll_le entries ([] : List Entry)
    rw [List.length_nil, Nat.add_zero] at hle
    exact Nat.lt_of_le_of_lt hle hlength
  · rcases Keyed.mem_insertAll he with he | he
    · exact hdepth e he
    · cases he

theorem regular_of_load {d : Disk} {path : Path} {name : String} {i : Index}
    (h : load d path name = .ok i) : ∀ e ∈ i.entries, e.2.Regular := by
  obtain ⟨entries, rfl, -, hregular⟩ := load_eq_ok h
  intro e he
  rcases Keyed.mem_insertAll he with he | he
  · exact hregular e he
  · cases he

/-- An index as it is read from the file that was written for it. -/
def asWritten (i : Index) : Index := ⟨i.entries.map writtenEntry, false⟩

theorem get?_asWritten (i : Index) (message : UInt64) :
    i.asWritten.get? message = (i.get? message).map Value.asWritten :=
  Keyed.find?_map (fun _ : UInt64 => Value.asWritten) message i.entries

theorem size_asWritten (i : Index) : i.asWritten.size = i.size := List.length_map _

theorem asWritten_of_load {d : Disk} {path : Path} {name : String} {i : Index}
    (h : load d path name = .ok i) : i.asWritten = i := by
  obtain ⟨-, -, hclean⟩ := load_ok h
  rw [asWritten, map_writtenEntry (regular_of_load h), ← hclean]

/-- An index is told from the one that is read for it by the times in its entries. -/
theorem get?_asWritten_eq {i : Index} (hs : Keyed.Sorted i.entries) :
    (∀ message, i.asWritten.get? message = i.get? message) ↔ ∀ e ∈ i.entries, e.2.Regular := by
  constructor
  · intro h e he
    have hfind : i.get? e.1 = some e.2 := Keyed.find?_of_mem hs he
    have hsame := h e.1
    rw [get?_asWritten, hfind] at hsame
    exact (Value.asWritten_eq_self e.2).1 (Option.some.inj hsame)
  · intro h message
    rw [get?, asWritten, map_writtenEntry h]
    rfl

/-- A file holds entries in all that can be told from loading it: they are loaded as they were
written if they are readable, and the file is refused if they are not. -/
def Holds (d : Disk) (path : Path) (name : String) (entries : List Entry) : Prop :=
  (Readable entries → load d path name = .ok ⟨entries.map writtenEntry, false⟩) ∧
    (¬ Readable entries → ∃ cause, load d path name = .error (.corrupted name cause))

theorem holds_congr {d d' : Disk} {path : Path} {name : String} {entries : List Entry}
    (hload : load d path name = load d' path name) (h : Holds d' path name entries) :
    Holds d path name entries := by
  rw [Holds, hload]
  exact h

theorem holds_loaded {d : Disk} {path : Path} {name : String} {i : Index}
    (h : load d path name = .ok i) : Holds d path name i.entries := by
  obtain ⟨-, hreadable, hclean⟩ := load_ok h
  have hregular := regular_of_load h
  obtain ⟨entries, dirty⟩ := i
  subst hclean
  rw [Holds, map_writtenEntry hregular]
  exact ⟨fun _ => h, fun hun => absurd hreadable hun⟩

theorem holds_written {d : Disk} {directory place : Path}
    (henter : d.enter [] directory = .ok place) {name : String} {entries : List Entry}
    (hs : Keyed.Sorted entries)
    (htarget : target directory place (fileName name) = .ok (place ++ [fileName name]))
    (hnode : d.node? (place ++ [fileName name]) = some (node name entries)) :
    Holds d (directory ++ [fileName name]) name entries := by
  obtain ⟨hfile, hback⟩ := fileName_isStep name
  have hread : d.read (directory ++ [fileName name]) = .ok (.bytes (encode name entries)) := by
    refine read_of_node ?_ hnode
    rw [locate_file henter hfile hback, htarget]
  refine ⟨fun hreadable => ?_, fun hunreadable => ?_⟩
  · rw [load_of_decode hread (decode_encode hreadable name), sortEntries_sorted hs,
      Keyed.insertAll_sorted (sorted_map_writtenEntry hs)]
  · obtain ⟨cause, hcause⟩ := decode_encode_refused hunreadable name
    exact ⟨cause, load_of_refused hread hcause⟩

end Colloquy.Index
