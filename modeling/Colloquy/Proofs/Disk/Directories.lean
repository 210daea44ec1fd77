import Colloquy.Proofs.Disk

/-!
Making directories adds them where nothing was, and leaves every file in its place; asked for again,
they are found as they were left.
-/

namespace Colloquy.Disk

/-- What the file at a place holds, if one is there. -/
def fileAt? (d : Disk) (place : Path) : Option Content :=
  match d.node? place with
  | some (.file content) => some content
  | _ => none

theorem fileAt?_eq_some {d : Disk} {place : Path} {content : Content} :
    d.fileAt? place = some content ↔ d.node? place = some (.file content) := by
  unfold fileAt?
  split
  · rename_i held hnode
    rw [hnode, Option.some.injEq, Option.some.injEq, Node.file.injEq]
  · rename_i hnone
    constructor
    · intro h
      cases h
    · intro h
      exact absurd h (hnone content)

theorem fileAt?_congr {d d' : Disk} {place : Path} (h : d'.node? place = d.node? place) :
    d'.fileAt? place = d.fileAt? place := by
  rw [fileAt?, fileAt?, h]

/-- One disk has the files of another, and directories besides those of the other. -/
structure Grown (d d' : Disk) : Prop where
  keeps : Keeps d d'
  files : ∀ place, d'.fileAt? place = d.fileAt? place
  locked : d'.locked = d.locked

theorem grown_refl (d : Disk) : Grown d d := ⟨keeps_refl d, fun _ => rfl, rfl⟩

theorem grown_trans {d₁ d₂ d₃ : Disk} (h₁ : Grown d₁ d₂) (h₂ : Grown d₂ d₃) : Grown d₁ d₃ :=
  ⟨keeps_trans h₁.keeps h₂.keeps, fun place => (h₂.files place).trans (h₁.files place),
    h₂.locked.trans h₁.locked⟩

/-- A directory may be put where nothing is. -/
theorem grown_put {d : Disk} {place : Path} (h : d.node? place = none) :
    Grown d (d.put place .directory) := by
  have hfree : d.node? place ≠ some .directory := by simp [h]
  have hne : place ≠ [] := by
    rintro rfl
    cases h
  refine ⟨keeps_put hfree .directory, fun other => ?_, rfl⟩
  by_cases hother : other = place
  · rw [hother, fileAt?, fileAt?, node?_put_self d hne, h]
  · exact fileAt?_congr (node?_put_of_ne d hother .directory)

theorem grown_createFrom (d : Disk) (place path : Path) :
    Grown d (d.createFrom place path).2 := by
  induction path generalizing d place with
  | nil => exact grown_refl d
  | cons step rest ih =>
    rw [createFrom]
    split
    · exact ih d place.dropLast
    split
    · exact grown_refl d
    split
    · exact ih d (place ++ [step])
    · exact grown_refl d
    · rename_i hnode
      exact grown_trans (grown_put hnode) (ih _ (place ++ [step]))

/-- On a disk that has grown from what was made, the same directories are found made. -/
theorem createFrom_again {d made d' : Disk} {place path : Path} {outcome : Except Fault Unit}
    (h : d.createFrom place path = (outcome, made)) (hgrown : Grown made d') :
    d'.createFrom place path = (outcome, d') := by
  induction path generalizing d place with
  | nil =>
    cases h
    rfl
  | cons step rest ih =>
    -- each step is looked up on a disk that has grown since, where it leads to what it led to
    have hfirst : Grown d d' := by
      have hmade := grown_createFrom d place (step :: rest)
      rw [h] at hmade
      exact grown_trans hmade hgrown
    rw [createFrom] at h ⊢
    split
    · rename_i hback
      rw [if_pos hback] at h
      exact ih h
    rename_i hback
    rw [if_neg hback] at h
    split
    · rename_i hlong
      rw [if_pos hlong] at h
      rw [(Prod.mk.inj h).1]
    rename_i hlong
    rw [if_neg hlong] at h
    cases hnode : d.node? (place ++ [step]) with
    | none =>
      rw [hnode] at h
      -- the directory that was missing is there by now
      have hmade := grown_createFrom (d.put (place ++ [step]) .directory) (place ++ [step]) rest
      have hne : place ++ [step] ≠ [] := by simp
      have hput := node?_put_self d hne .directory
      simp only at h
      rw [h] at hmade
      rw [hgrown.keeps _ (hmade.keeps _ hput)]
      exact ih h
    | some node =>
      cases node with
      | directory =>
        rw [hnode] at h
        rw [hfirst.keeps _ hnode]
        exact ih h
      | file content =>
        have hfile := hfirst.files (place ++ [step])
        rw [fileAt?_eq_some.2 hnode, fileAt?_eq_some] at hfile
        rw [hnode] at h
        rw [hfile]
        exact Prod.ext (Prod.mk.inj h).1 rfl

theorem steps_steps (path : Path) : Path.steps (Path.steps path) = Path.steps path := by
  rw [Path.steps, Path.steps, List.filter_filter]
  simp

/-- Steps that lead somewhere are made one after another. -/
theorem createDirectories_steps (d : Disk) (path : Path) :
    d.createDirectories (Path.steps path) =
      match pathFault? (Path.steps path) with
      | some fault => (.error fault, d)
      | none => d.createFrom [] (Path.steps path) := by
  have hmark : (Path.steps path).getLast? ≠ some "." := by
    intro hlast
    have hstep := isStep_of_mem_steps _ (List.mem_of_getLast? hlast)
    exact absurd hstep (by decide)
  rw [createDirectories, steps_steps]
  cases pathFault? (Path.steps path) with
  | some fault => rfl
  | none => exact if_neg hmark

theorem grown_createDirectories (d : Disk) (path : Path) :
    Grown d (d.createDirectories (Path.steps path)).2 := by
  rw [createDirectories_steps]
  split
  · exact grown_refl d
  · exact grown_createFrom d [] (Path.steps path)

theorem createDirectories_again {d made : Disk} {path : Path} {outcome : Except Fault Unit}
    (h : d.createDirectories (Path.steps path) = (outcome, made)) :
    made.createDirectories (Path.steps path) = (outcome, made) := by
  rw [createDirectories_steps] at h ⊢
  split
  · rename_i hfault
    rw [hfault] at h
    rw [(Prod.mk.inj h).1]
  · rename_i hfault
    rw [hfault] at h
    exact createFrom_again h (grown_refl made)

end Colloquy.Disk

namespace Colloquy.Path

/-- The place that a path leads to where all that it comes by is there. -/
def destination (path : Path) : Path := (stages path).getLast?.getD []

end Colloquy.Path

namespace Colloquy.Disk

theorem stagesFrom_of_enter {d : Disk} {place path goal : Path}
    (hsteps : ∀ step ∈ path, Path.isStep step = true) (h : d.enter place path = .ok goal) :
    (Path.stagesFrom place path).getLast?.getD place = goal := by
  induction path generalizing place with
  | nil => exact Except.ok.inj h
  | cons step rest ih =>
    have hrest := fun s hs => hsteps s (List.mem_cons_of_mem _ hs)
    have hstep : ¬ (!Path.isStep step) = true := by simp [hsteps step List.mem_cons_self]
    rw [enter, if_neg hstep] at h
    rw [Path.stagesFrom, List.getLast?_cons, Option.getD_some]
    split at h
    · rename_i hback
      rw [if_pos hback]
      exact ih hrest h
    rename_i hback
    rw [if_neg hback]
    split at h
    · cases h
    split at h
    · cases h
    · cases h
    · exact ih hrest h

/-- A file that is reached is in a directory that can be entered. -/
theorem enter_of_locate {d : Disk} {directory goal : Path} {file : String}
    (h : d.locate (directory ++ [file]) = .ok goal) :
    ∃ place, d.enter [] directory = .ok place := by
  rw [locate] at h
  split at h
  · cases h
  · rw [locateSteps, List.getLast?_concat, List.dropLast_concat] at h
    cases henter : d.enter [] directory with
    | error fault =>
      rw [henter] at h
      cases h
    | ok place => exact ⟨place, rfl⟩

/-- Where a directory can be entered there is one place that it can be. -/
theorem destination_of_enter {d : Disk} {path place : Path} (h : d.enter [] path = .ok place) :
    Path.destination path = place := by
  rw [← enter_steps] at h
  exact stagesFrom_of_enter isStep_of_mem_steps h

end Colloquy.Disk
