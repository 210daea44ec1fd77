import Colloquy.Proofs.Disk.Children
import Colloquy.Proofs.Index.Format

/-!
What a write does to the files around it, wherever it is made: it comes to what it would have come
to with the directory there.
-/

namespace Colloquy.Index
open Colloquy.Disk

variable {d d' made : Disk} {directory place : Path} {name other : String} {entries : List Entry}

/-- The place of the file of an index. -/
def filePlace (directory : Path) (name : String) : Path :=
  directory.destination ++ [fileName name]

/-- The place that the file of an index is written to first. -/
def stagingPlace (directory : Path) (name : String) : Path :=
  directory.destination ++ [stagingName name]

theorem stagingName_inj {a b : String} (h : stagingName a = stagingName b) : a = b := by
  have hlist := congrArg String.toList h
  rw [stagingName, stagingName, String.toList_append, String.toList_append] at hlist
  exact String.toList_inj.1 (List.append_cancel_right hlist)

/-! ## In a directory that is there -/

theorem writeAt_node? (henter : d.enter [] directory = .ok place) (hname : isName name = true)
    (entries : List Entry) {spot : Path} (hfile : spot ≠ place ++ [fileName name])
    (hstaging : spot ≠ place ++ [stagingName name]) :
    (writeAt d (directory ++ [fileName name]) name entries).2.node? spot = d.node? spot := by
  rcases writeAt_cases henter hname entries with ⟨fault, h⟩ | ⟨-, ⟨fault, h⟩ | ⟨-, -, h⟩⟩
  · rw [h]
  · rw [h, node?_put_of_ne _ hstaging]
  · rw [h, node?_put_of_ne _ hfile, node?_clear_of_ne _ hstaging, node?_put_of_ne _ hstaging]

theorem writeAt_locked (henter : d.enter [] directory = .ok place) (hname : isName name = true)
    (entries : List Entry) :
    (writeAt d (directory ++ [fileName name]) name entries).2.locked = d.locked := by
  rcases writeAt_cases henter hname entries with ⟨fault, h⟩ | ⟨-, ⟨fault, h⟩ | ⟨-, -, h⟩⟩ <;>
    rw [h] <;> rfl

/-- What a write comes to depends on two places and the locks. -/
theorem outcome_congr (henter : d.enter [] directory = .ok place)
    (henter' : d'.enter [] directory = .ok place) (hname : isName name = true)
    (hlocked : d'.locked = d.locked)
    (hfile : d'.node? (place ++ [fileName name]) = d.node? (place ++ [fileName name]))
    (hstaging : d'.node? (place ++ [stagingName name]) = d.node? (place ++ [stagingName name]))
    (entries : List Entry) :
    (writeAt d' (directory ++ [fileName name]) name entries).1 =
      (writeAt d (directory ++ [fileName name]) name entries).1 := by
  rw [writeAt_entered henter hname, writeAt_entered henter' hname,
    obstacle?_congr hlocked hstaging, obstacle?_congr hlocked hfile]
  cases d.obstacle? (Path.steps directory) place (stagingName name) with
  | some fault => rfl
  | none => cases d.obstacle? directory place (fileName name) <;> rfl

/-! ## In any directory -/

theorem writeAt_unmade {fault : Fault}
    (h : d.createDirectories (Path.steps directory) = (.error fault, made)) (name : String)
    (entries : List Entry) :
    writeAt d (directory ++ [fileName name]) name entries = (.error fault, made) := by
  rw [writeAt, parent_file, h]

/-- The directory might as well have been made before. -/
theorem writeAt_made (h : d.createDirectories (Path.steps directory) = (.ok (), made))
    (name : String) (entries : List Entry) :
    writeAt d (directory ++ [fileName name]) name entries =
      writeAt made (directory ++ [fileName name]) name entries := by
  rw [writeAt, writeAt, parent_file, h, createDirectories_again h]

theorem enter_of_made (h : d.createDirectories (Path.steps directory) = (.ok (), made)) :
    ∃ place, made.enter [] directory = .ok place := by
  obtain ⟨-, place, hplace⟩ := enter_of_createDirectories h
  rw [enter_steps] at hplace
  exact ⟨place, hplace⟩

/-- A write changes the places of its two files only, and directories on the way to them that were
not there. -/
theorem changedAt_writeAt (d : Disk) (directory : Path) (hname : isName name = true)
    (entries : List Entry) :
    ChangedAt directory [filePlace directory name, stagingPlace directory name] d
      (writeAt d (directory ++ [fileName name]) name entries).2 := by
  have hthere {d : Disk} {place : Path} (henter : d.enter [] directory = .ok place) {spot : Path}
      (hspot : spot ∉ [filePlace directory name, stagingPlace directory name]) :
      (writeAt d (directory ++ [fileName name]) name entries).2.node? spot = d.node? spot := by
    rw [List.mem_pair, not_or, filePlace, stagingPlace, destination_of_enter henter] at hspot
    exact writeAt_node? henter hname entries hspot.1 hspot.2
  refine ⟨fun spot hspot => ?_, fun place henter spot hspot => hthere henter hspot⟩
  -- apart from the two files a write does what making the directory does
  have hsame : (writeAt d (directory ++ [fileName name]) name entries).2.node? spot =
      (d.createDirectories (Path.steps directory)).2.node? spot := by
    rcases hmade : d.createDirectories (Path.steps directory) with ⟨fault | _, made⟩
    · rw [writeAt_unmade hmade]
    · obtain ⟨place, hplace⟩ := enter_of_made hmade
      rw [writeAt_made hmade]
      exact hthere hplace hspot
  rw [hsame]
  by_cases hchanged : (d.createDirectories (Path.steps directory)).2.node? spot = d.node? spot
  · exact .inl hchanged
  · refine .inr ⟨?_, made_of_grown (grown_createDirectories d directory) hchanged⟩
    by_contra haway
    exact hchanged (createDirectories_node? d directory haway)

/-- No directory is taken away by a write, and all files but the two stay as they are. -/
theorem writeAt_frame (d : Disk) (directory : Path) (hname : isName name = true)
    (entries : List Entry) :
    Keeps d (writeAt d (directory ++ [fileName name]) name entries).2 ∧
      ∀ spot, spot ≠ filePlace directory name → spot ≠ stagingPlace directory name →
        (writeAt d (directory ++ [fileName name]) name entries).2.fileAt? spot =
          d.fileAt? spot := by
  refine ⟨?_, fun spot hfile hstaging => ?_⟩
  · have hgrown := grown_createDirectories d directory
    rcases hmade : d.createDirectories (Path.steps directory) with ⟨fault | _, made⟩
    · rw [hmade] at hgrown
      rw [writeAt_unmade hmade]
      exact hgrown.keeps
    · rw [hmade] at hgrown
      obtain ⟨place, hplace⟩ := enter_of_made hmade
      rw [writeAt_made hmade]
      exact keeps_trans hgrown.keeps (keeps_writeAt hplace hname entries)
  · refine (changedAt_writeAt d directory hname entries).fileAt?_eq ?_
    rw [List.mem_pair, not_or]
    exact ⟨hfile, hstaging⟩

/-- A write that fails leaves the file as it was. -/
theorem fileAt?_failed (hname : isName name = true) {fault : Fault}
    (h : writeAt d (directory ++ [fileName name]) name entries = (.error fault, d')) :
    d'.fileAt? (filePlace directory name) = d.fileAt? (filePlace directory name) := by
  have hgrown := grown_createDirectories d directory
  rcases hmade : d.createDirectories (Path.steps directory) with ⟨_ | _, made⟩
  · rw [hmade] at hgrown
    rw [writeAt_unmade hmade] at h
    rw [← (Prod.mk.inj h).2]
    exact hgrown.files _
  · rw [hmade] at hgrown
    obtain ⟨place, hplace⟩ := enter_of_made hmade
    rw [writeAt_made hmade] at h
    rw [filePlace, destination_of_enter hplace]
    exact (fileAt?_congr (writeAt_failed hplace hname h)).trans (hgrown.files _)

/-- What could be read as the file of an index still is where directories may have been added. -/
theorem read_of_fileAt? (hkeeps : Keeps d d')
    (hfile : d'.fileAt? (filePlace directory name) = d.fileAt? (filePlace directory name))
    {content : Content} (h : d.read (directory ++ [fileName name]) = .ok content) :
    d'.read (directory ++ [fileName name]) = .ok content := by
  obtain ⟨hstep, hback⟩ := fileName_isStep name
  obtain ⟨goal, hlocate, hnode⟩ := read_eq_ok h
  obtain ⟨place, hplace⟩ := enter_of_locate hlocate
  have hgoal : goal = filePlace directory name := by
    have htarget := hlocate
    rw [locate_file hplace hstep hback] at htarget
    rw [target_eq_ok htarget, filePlace, destination_of_enter hplace]
  rw [← hgoal, fileAt?_eq_some.2 hnode, fileAt?_eq_some] at hfile
  exact read_of_node (locate_of_keeps hkeeps hlocate) hfile

/-- A disk on which an index fares as on another: its files are the same there, and a write of it
comes to the same. -/
structure Spared (directory : Path) (name : String) (d d' : Disk) : Prop where
  keeps : Keeps d d'
  file : d'.fileAt? (filePlace directory name) = d.fileAt? (filePlace directory name)
  staging : d'.fileAt? (stagingPlace directory name) = d.fileAt? (stagingPlace directory name)
  outcome : ∀ entries, (writeAt d' (directory ++ [fileName name]) name entries).1 =
    (writeAt d (directory ++ [fileName name]) name entries).1

theorem spared_refl (directory : Path) (name : String) (d : Disk) : Spared directory name d d :=
  ⟨keeps_refl d, rfl, rfl, fun _ => rfl⟩

theorem spared_trans {d₁ d₂ d₃ : Disk} (h₁ : Spared directory name d₁ d₂)
    (h₂ : Spared directory name d₂ d₃) : Spared directory name d₁ d₃ :=
  ⟨keeps_trans h₁.keeps h₂.keeps, h₂.file.trans h₁.file, h₂.staging.trans h₁.staging,
    fun entries => (h₂.outcome entries).trans (h₁.outcome entries)⟩

/-- A write spares every other index. -/
theorem spared_writeAt (hname : isName name = true) (hother : isName other = true)
    (hne : other ≠ name) (entries : List Entry) :
    Spared directory other d (writeAt d (directory ++ [fileName name]) name entries).2 := by
  -- two indexes have four places, no two of them the same
  have hfile (place : Path) : place ++ [fileName other] ≠ place ++ [fileName name] :=
    place_ne place fun h => hne (fileName_inj h)
  have hstaging (place : Path) : place ++ [stagingName other] ≠ place ++ [stagingName name] :=
    place_ne place fun h => hne (stagingName_inj h)
  have hcross (place : Path) (a b : String) : place ++ [fileName a] ≠ place ++ [stagingName b] :=
    place_ne place (fileName_ne_stagingName a b)
  obtain ⟨hkeeps, hframe⟩ := writeAt_frame d directory hname entries
  refine ⟨hkeeps, hframe _ (hfile _) (hcross _ _ _), hframe _ (hcross _ _ _).symm (hstaging _), ?_⟩
  intro others
  rcases hmade : d.createDirectories (Path.steps directory) with ⟨fault | _, made⟩
  · -- nothing can be written at all, before and after
    rw [writeAt_unmade hmade, writeAt_unmade hmade, writeAt_unmade (createDirectories_again hmade)]
  · obtain ⟨place, hplace⟩ := enter_of_made hmade
    rw [writeAt_made hmade, writeAt_made hmade]
    -- the directory is there for both writes, so only the two places of the other index matter
    have henter := enter_of_keeps (keeps_writeAt hplace hname entries) hplace
    have hsamefile := writeAt_node? hplace hname entries (hfile place) (hcross place _ _)
    have hsamestaging :=
      writeAt_node? hplace hname entries (hcross place _ _).symm (hstaging place)
    exact outcome_congr hplace henter hother (writeAt_locked hplace hname entries) hsamefile
      hsamestaging others

end Colloquy.Index
