import Colloquy.Proofs.Disk.Directories

/-!
Paths that go on from a directory by one name. Such a path is what is written as the directory, a
slash and the name, and it leads to a place right in that of the directory.
-/

namespace Colloquy.Path

variable {file : String}

/-- A mark leads nowhere. -/
theorem steps_markOf (parts : List String) : steps (markOf parts) = [] := by
  fun_induction markOf parts with
  | case1 rest ih => exact ih
  | _ => rfl

theorem steps_ofString (s : String) :
    steps (ofString s) = steps ((s.toList.splitOn '/').map String.ofList) := by
  have hsteps (path : Path) : steps (steps path) = steps path := Disk.steps_steps path
  have happend (a b : Path) : steps (a ++ b) = steps a ++ steps b := List.filter_append a b
  rw [ofString, happend, hsteps, steps_markOf, List.append_nil]

/-- A name that is joined to a written path takes one step more. -/
theorem steps_join (directory : String) (hslash : '/' ∉ file.toList) (hstep : isStep file = true) :
    steps (ofString (join directory file)) = steps (ofString directory) ++ [file] := by
  have hfile : (file.toList.splitOn '/').map String.ofList = [file] := by
    rw [List.splitOn_eq_singleton hslash, List.map_singleton, String.ofList_toList]
  -- a slash between the two keeps the steps of both
  have hbetween (base : List Char) :
      steps (((base ++ '/' :: file.toList).splitOn '/').map String.ofList) =
        steps ((base.splitOn '/').map String.ofList) ++ [file] := by
    rw [List.splitOn_append_cons_self, List.map_append, hfile, steps_append_file _ hstep]
  have hhead : file.toList.head? ≠ some '/' := fun h => hslash (List.mem_of_head? h)
  rw [join, if_neg hhead]
  split
  · rename_i hempty
    have hnone : steps (ofString directory) = [] := by
      rw [String.isEmpty_iff.1 hempty]
      decide
    rw [hnone, steps_ofString, hfile]
    exact steps_append_file [] hstep
  split
  · rename_i hlast
    -- the directory brings the slash itself, after which it has nothing but an empty part
    obtain ⟨base, hbase⟩ := List.getLast?_eq_some_iff.1 hlast
    have hdirectory : steps ((directory.toList.splitOn '/').map String.ofList) =
        steps ((base.splitOn '/').map String.ofList) := by
      rw [hbase, List.splitOn_append_cons_self, List.map_append, steps, List.filter_append]
      exact List.append_nil _
    rw [steps_ofString, steps_ofString, hdirectory, String.toList_append, hbase,
      List.append_assoc, List.singleton_append, hbetween]
  · rw [steps_ofString, steps_ofString, String.toList_append, String.toList_append,
      List.append_assoc]
    exact hbetween directory.toList

/-- Where a walk along a path ends, going on from a place. -/
theorem stagesFrom_append_file (before path : Path) (hback : file ≠ "..") :
    (stagesFrom before (path ++ [file])).getLast?.getD before =
      (stagesFrom before path).getLast?.getD before ++ [file] := by
  induction path generalizing before with
  | nil => simp [stagesFrom, hback]
  | cons step rest ih =>
    rw [List.cons_append, stagesFrom, stagesFrom, List.getLast?_cons, List.getLast?_cons,
      Option.getD_some, Option.getD_some]
    exact ih _

theorem destination_append_file (path : Path) (hstep : isStep file = true) (hback : file ≠ "..") :
    destination (path ++ [file]) = destination path ++ [file] := by
  rw [destination, destination, stages, stages, steps_append_file path hstep]
  exact stagesFrom_append_file [] (steps path) hback

theorem destination_steps (path : Path) : destination (steps path) = destination path := by
  rw [destination, destination, stages, stages, Disk.steps_steps]

/-- A path to a file right in a directory: to a name of its own, joined to that of the directory. -/
def IsChild (directory : String) (path : Path) : Prop :=
  ∃ file, '/' ∉ file.toList ∧ isStep file = true ∧ file ≠ ".." ∧
    path.steps = (ofString (join directory file)).steps ∧
    path.steps = (ofString directory).steps ++ [file] ∧
    path.destination = (ofString directory).destination ++ [file]

end Colloquy.Path

namespace Colloquy.Disk

/-- Where one disk has grown from another nothing was, and a directory is. -/
theorem made_of_grown {d d' : Disk} (h : Grown d d') {spot : Path}
    (hne : d'.node? spot ≠ d.node? spot) :
    d.node? spot = none ∧ d'.node? spot = some .directory := by
  have hfile := h.files spot
  cases hnode : d.node? spot with
  | some node =>
    cases node with
    | directory => exact absurd (by rw [h.keeps spot hnode, hnode]) hne
    | file content =>
      rw [fileAt?_eq_some.2 hnode, fileAt?_eq_some] at hfile
      exact absurd (by rw [hfile, hnode]) hne
  | none =>
    refine ⟨rfl, ?_⟩
    cases hnode' : d'.node? spot with
    | none => exact absurd (by rw [hnode', hnode]) hne
    | some node =>
      cases node with
      | directory => rfl
      | file content =>
        rw [fileAt?_eq_some.2 hnode', fileAt?, hnode] at hfile
        cases hfile

/-- Directories are made on the way only. -/
theorem createFrom_node? (d : Disk) (place path : Path) {spot : Path}
    (hspot : spot ∉ Path.stagesFrom place path) :
    (d.createFrom place path).2.node? spot = d.node? spot := by
  induction path generalizing d place with
  | nil => rfl
  | cons step rest ih =>
    rw [Path.stagesFrom, List.mem_cons, not_or] at hspot
    rw [createFrom]
    split
    · rename_i hback
      rw [if_pos hback] at hspot
      exact ih d place.dropLast hspot.2
    rename_i hback
    rw [if_neg hback] at hspot
    split
    · rfl
    split
    · exact ih d (place ++ [step]) hspot.2
    · rfl
    · rw [ih _ (place ++ [step]) hspot.2, node?_put_of_ne d hspot.1]

theorem createDirectories_node? (d : Disk) (path : Path) {spot : Path}
    (hspot : spot ∉ path.stages) :
    (d.createDirectories (Path.steps path)).2.node? spot = d.node? spot := by
  rw [createDirectories_steps]
  split
  · rfl
  · exact createFrom_node? d [] (Path.steps path) hspot

/-- A disk on which nothing has changed but what is at some places, and directories that were made
where nothing was, on the way to one that was not there. -/
structure ChangedAt (directory : Path) (places : List Path) (d d' : Disk) : Prop where
  elsewhere : ∀ spot, spot ∉ places → d'.node? spot = d.node? spot ∨
    spot ∈ directory.stages ∧ d.node? spot = none ∧ d'.node? spot = some .directory
  /-- No directory is made where the one to which they lead is there. -/
  there : ∀ place, d.enter [] directory = .ok place →
    ∀ spot, spot ∉ places → d'.node? spot = d.node? spot

theorem ChangedAt.fileAt?_eq {directory : Path} {places : List Path} {d d' : Disk}
    (h : ChangedAt directory places d d') {spot : Path} (hspot : spot ∉ places) :
    d'.fileAt? spot = d.fileAt? spot := by
  rcases h.elsewhere spot hspot with hnode | ⟨-, hnone, hmade⟩
  · exact fileAt?_congr hnode
  · rw [fileAt?, fileAt?, hnone, hmade]

theorem changedAt_refl (directory : Path) (places : List Path) (d : Disk) :
    ChangedAt directory places d d :=
  ⟨fun _ _ => .inl rfl, fun _ _ _ _ => rfl⟩

end Colloquy.Disk
