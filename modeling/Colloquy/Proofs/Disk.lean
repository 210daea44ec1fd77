import Colloquy.Disk
import Colloquy.Proofs.Keyed

/-!
A path into a directory that can be entered leads to the same place on every disk on which the
directories are still there.
-/

namespace Colloquy.Path

theorem steps_append_file (path : Path) {file : String} (hstep : isStep file = true) :
    steps (path ++ [file]) = steps path ++ [file] := by
  rw [steps, List.filter_append, List.filter_cons_of_pos hstep]
  rfl

end Colloquy.Path

namespace Colloquy.Disk

theorem node?_of_ne_nil (d : Disk) {place : Path} (h : place ≠ []) :
    d.node? place = (d.nodes.find? fun entry => entry.1 = place).map Prod.snd := by
  have hempty : place.isEmpty = false := by simp [h]
  rw [node?, hempty]
  simp only [Bool.false_eq_true, if_false]

theorem node?_nil (d : Disk) : d.node? [] = some .directory := rfl

theorem node?_put_self (d : Disk) {place : Path} (h : place ≠ []) (node : Node) :
    (d.put place node).node? place = some node := by
  rw [node?_of_ne_nil _ h, put, List.find?_cons_of_pos (by simp)]
  rfl

theorem node?_put_of_ne (d : Disk) {place other : Path} (hne : other ≠ place) (node : Node) :
    (d.put place node).node? other = d.node? other := by
  by_cases hnil : other = []
  · rw [hnil, node?_nil, node?_nil]
  · rw [node?_of_ne_nil _ hnil, node?_of_ne_nil _ hnil, put,
      List.find?_cons_of_neg (by simpa using hne.symm), Keyed.find?_filter_ne Prod.fst hne]

theorem node?_clear_of_ne (d : Disk) {place other : Path} (hne : other ≠ place) :
    (d.clear place).node? other = d.node? other := by
  by_cases hnil : other = []
  · rw [hnil, node?_nil, node?_nil]
  · rw [node?_of_ne_nil _ hnil, node?_of_ne_nil _ hnil, clear, Keyed.find?_filter_ne Prod.fst hne]

theorem node?_clear_self (d : Disk) {place : Path} (h : place ≠ []) :
    (d.clear place).node? place = none := by
  have hnone : (d.nodes.filter fun entry => entry.1 ≠ place).find?
      (fun entry => entry.1 = place) = none := by
    rw [List.find?_eq_none]
    intro entry hentry
    simpa using (List.mem_filter.1 hentry).2
  rw [node?_of_ne_nil _ h, clear, hnone]
  rfl

/-- Every directory is still a directory. -/
def Keeps (d d' : Disk) : Prop := ∀ place, d.node? place = some .directory →
  d'.node? place = some .directory

theorem keeps_refl (d : Disk) : Keeps d d := fun _ h => h

theorem keeps_trans {d₁ d₂ d₃ : Disk} (h₁ : Keeps d₁ d₂) (h₂ : Keeps d₂ d₃) : Keeps d₁ d₃ :=
  fun place h => h₂ place (h₁ place h)

theorem keeps_put {d : Disk} {place : Path} (h : d.node? place ≠ some .directory)
    (node : Node) : Keeps d (d.put place node) := by
  intro other hother
  have hne : other ≠ place := by
    rintro rfl
    exact h hother
  rw [node?_put_of_ne d hne, hother]

theorem keeps_clear {d : Disk} {place : Path} (h : d.node? place ≠ some .directory) :
    Keeps d (d.clear place) := by
  intro other hother
  have hne : other ≠ place := by
    rintro rfl
    exact h hother
  rw [node?_clear_of_ne d hne, hother]

/-- Nothing is changed but what is at one place, if at any, and no directory is taken away. -/
def ChangesOnly (place : Option Path) (d d' : Disk) : Prop :=
  Keeps d d' ∧ ∀ other, place ≠ some other → d'.node? other = d.node? other

theorem changesOnly_refl (place : Option Path) (d : Disk) : ChangesOnly place d d :=
  ⟨keeps_refl d, fun _ _ => rfl⟩

theorem changesOnly_trans {place : Option Path} {d₁ d₂ d₃ : Disk}
    (h₁ : ChangesOnly place d₁ d₂) (h₂ : ChangesOnly place d₂ d₃) : ChangesOnly place d₁ d₃ :=
  ⟨keeps_trans h₁.1 h₂.1, fun other hne => (h₂.2 other hne).trans (h₁.2 other hne)⟩

/-- A walk goes the same way while the directories are there. -/
theorem enter_of_keeps {d d' : Disk} (hkeeps : Keeps d d') {path place goal : Path}
    (h : d.enter place path = .ok goal) : d'.enter place path = .ok goal := by
  induction path generalizing place with
  | nil => exact h
  | cons step rest ih =>
    rw [enter] at h ⊢
    -- the two walks differ only where they look at the disk
    split
    · rename_i hstep
      rw [if_pos hstep] at h
      exact ih h
    rename_i hstep
    rw [if_neg hstep] at h
    split
    · rename_i hback
      rw [if_pos hback] at h
      exact ih h
    rename_i hback
    rw [if_neg hback] at h
    split
    · rename_i hlong
      rw [if_pos hlong] at h
      cases h
    rename_i hlong
    rw [if_neg hlong] at h
    cases hnode : d.node? (place ++ [step]) with
    | none =>
      rw [hnode] at h
      cases h
    | some node =>
      cases node with
      | file content =>
        rw [hnode] at h
        cases h
      | directory =>
        rw [hnode] at h
        rw [hkeeps _ hnode]
        exact ih h

/-- So a path leads where it led. -/
theorem locate_of_keeps {d d' : Disk} (hkeeps : Keeps d d') {path goal : Path}
    (h : d.locate path = .ok goal) : d'.locate path = .ok goal := by
  rw [locate] at h ⊢
  cases hfault : pathFault? path with
  | some fault =>
    rw [hfault] at h
    cases h
  | none =>
    rw [hfault] at h
    simp only [locateSteps] at h ⊢
    cases hlast : path.getLast? with
    | none =>
      rw [hlast] at h
      exact h
    | some last =>
      rw [hlast] at h
      cases henter : d.enter [] path.dropLast with
      | error fault =>
        rw [henter] at h
        cases h
      | ok place =>
        rw [henter] at h
        rw [enter_of_keeps hkeeps henter]
        exact h

/-- What may be written makes no difference to a walk or to what is read. -/
theorem enter_congr {d d' : Disk} (h : d'.nodes = d.nodes) (place path : Path) :
    d'.enter place path = d.enter place path := by
  induction path generalizing place with
  | nil => rfl
  | cons step rest ih =>
    have hnode (spot : Path) : d'.node? spot = d.node? spot := by rw [node?, node?, h]
    rw [enter, enter]
    simp only [ih, hnode]

theorem read_congr {d d' : Disk} (h : d'.nodes = d.nodes) (path : Path) :
    d'.read path = d.read path := by
  have hnode (spot : Path) : d'.node? spot = d.node? spot := by rw [node?, node?, h]
  simp only [Disk.read, lookup, locate, locateSteps, enter_congr h, hnode]

theorem enter_steps (d : Disk) (place path : Path) :
    d.enter place (Path.steps path) = d.enter place path := by
  induction path generalizing place with
  | nil => rfl
  | cons step rest ih =>
    by_cases hstep : Path.isStep step = true
    · have hsteps : Path.steps (step :: rest) = step :: Path.steps rest :=
        List.filter_cons_of_pos hstep
      rw [hsteps, enter, enter]
      simp only [ih]
    · have hsteps : Path.steps (step :: rest) = Path.steps rest := List.filter_cons_of_neg hstep
      have hskip : (!Path.isStep step) = true := by simpa using hstep
      rw [hsteps, ih, enter, if_pos hskip]

/-- Directories that can be entered need not be made. -/
theorem createFrom_of_enter {d : Disk} {path place goal : Path}
    (hsteps : ∀ step ∈ path, Path.isStep step = true) (h : d.enter place path = .ok goal) :
    d.createFrom place path = (.ok (), d) := by
  induction path generalizing place with
  | nil => rfl
  | cons step rest ih =>
    have hrest := fun s hs => hsteps s (List.mem_cons_of_mem _ hs)
    have hstep : ¬ (!Path.isStep step) = true := by simp [hsteps step List.mem_cons_self]
    rw [enter, if_neg hstep] at h
    rw [createFrom]
    -- making directories checks each step as entering them does
    split
    · rename_i hback
      rw [if_pos hback] at h
      exact ih hrest h
    rename_i hback
    rw [if_neg hback] at h
    split
    · rename_i hlong
      rw [if_pos hlong] at h
      cases h
    rename_i hlong
    rw [if_neg hlong] at h
    cases hnode : d.node? (place ++ [step]) with
    | none =>
      rw [hnode] at h
      cases h
    | some node =>
      cases node with
      | file content =>
        rw [hnode] at h
        cases h
      | directory =>
        rw [hnode] at h
        exact ih hrest h

/-- Directories that were made can be entered. -/
theorem enter_of_createFrom {d d' : Disk} {path place : Path}
    (hsteps : ∀ step ∈ path, Path.isStep step = true)
    (h : d.createFrom place path = (.ok (), d')) :
    Keeps d d' ∧ ∃ goal, d'.enter place path = .ok goal := by
  induction path generalizing d place with
  | nil =>
    cases h
    exact ⟨keeps_refl _, place, rfl⟩
  | cons step rest ih =>
    have hrest := fun s hs => hsteps s (List.mem_cons_of_mem _ hs)
    have hstep : ¬ (!Path.isStep step) = true := by simp [hsteps step List.mem_cons_self]
    rw [createFrom] at h
    rw [enter, if_neg hstep]
    split at h
    · rename_i hback
      rw [if_pos hback]
      exact ih hrest h
    rename_i hback
    rw [if_neg hback]
    split at h
    · cases h
    rename_i hlong
    rw [if_neg hlong]
    split at h
    · rename_i hnode
      obtain ⟨hkeeps, goal, hgoal⟩ := ih hrest h
      rw [hkeeps _ hnode]
      exact ⟨hkeeps, goal, hgoal⟩
    · cases h
    · rename_i hnode
      obtain ⟨hkeeps, goal, hgoal⟩ := ih hrest h
      -- a directory that is made here is still there after the rest
      have hmade : d'.node? (place ++ [step]) = some .directory :=
        hkeeps _ (node?_put_self d (by simp) .directory)
      rw [hmade]
      exact ⟨keeps_trans (keeps_put (by simp [hnode]) .directory) hkeeps, goal, hgoal⟩

theorem isStep_of_mem_steps {path : Path} : ∀ step ∈ Path.steps path, Path.isStep step = true :=
  fun _ h => (List.mem_filter.1 h).2

theorem enter_of_createDirectories {d d' : Disk} {path : Path}
    (h : d.createDirectories path = (.ok (), d')) :
    pathFault? path = none ∧ ∃ place, d'.enter [] path = .ok place := by
  unfold createDirectories at h
  split at h
  · cases h
  rename_i hfault
  refine ⟨hfault, ?_⟩
  split at h
  · -- a path that ends in a dot is not made, but it is entered before the call succeeds
    split at h
    · rename_i place hplace
      cases h
      exact ⟨place, hplace⟩
    · split at h
      · cases h
      · rename_i made _
        simp only [Prod.mk.injEq] at h
        obtain ⟨hmap, rfl⟩ := h
        cases henter : made.enter [] path with
        | error fault =>
          rw [henter] at hmap
          cases hmap
        | ok place => exact ⟨place, rfl⟩
    · cases h
  · obtain ⟨-, place, hplace⟩ := enter_of_createFrom isStep_of_mem_steps h
    rw [enter_steps] at hplace
    exact ⟨place, hplace⟩

theorem createDirectories_of_enter {d : Disk} {path place : Path}
    (hfault : pathFault? path = none) (h : d.enter [] path = .ok place) :
    d.createDirectories path = (.ok (), d) := by
  unfold createDirectories
  rw [hfault]
  simp only
  split
  · rw [h]
  · rw [← enter_steps] at h
    exact createFrom_of_enter isStep_of_mem_steps h

/-- Where a path to a file leads, past a directory that has been entered. -/
def target (directory place : Path) (file : String) : Except Fault Path :=
  match pathFault? (directory ++ [file]) with
  | some fault => .error fault
  | none => if nameLimit < file.utf8ByteSize then .error .nameTooLong else .ok (place ++ [file])

theorem locate_file {d : Disk} {directory place : Path} (h : d.enter [] directory = .ok place)
    {file : String} (hstep : Path.isStep file = true) (hback : file ≠ "..") :
    d.locate (directory ++ [file]) = target directory place file := by
  rw [locate, target]
  cases pathFault? (directory ++ [file]) with
  | some fault => rfl
  | none =>
    rw [locateSteps, List.getLast?_concat, List.dropLast_concat]
    simp only [h, hstep, Bool.not_true, Bool.false_eq_true, if_false, if_neg hback]

theorem target_eq_ok {directory place goal : Path} {file : String}
    (h : target directory place file = .ok goal) : goal = place ++ [file] := by
  unfold target at h
  split at h
  · cases h
  · split at h
    · cases h
    · exact (Except.ok.inj h).symm

theorem target_ne_notFound (directory place : Path) (file : String) :
    target directory place file ≠ .error .notFound := by
  unfold target pathFault?
  grind

/-- What is read at a path depends on the node at the end of it only. -/
theorem read_file {d d' : Disk} {directory place : Path} (h : d.enter [] directory = .ok place)
    (h' : d'.enter [] directory = .ok place) {file : String} (hstep : Path.isStep file = true)
    (hback : file ≠ "..") (hnode : d.node? (place ++ [file]) = d'.node? (place ++ [file])) :
    d.read (directory ++ [file]) = d'.read (directory ++ [file]) := by
  rw [read, read, lookup, lookup, locate_file h hstep hback, locate_file h' hstep hback]
  cases hgoal : target directory place file with
  | error fault => rfl
  | ok goal =>
    rw [target_eq_ok hgoal]
    simp only [hnode]

theorem read_of_node {d : Disk} {path goal : Path} {content : Content}
    (hlocate : d.locate path = .ok goal) (hnode : d.node? goal = some (.file content)) :
    d.read path = .ok content := by
  rw [read, lookup, hlocate]
  simp only [hnode]

theorem read_eq_ok {d : Disk} {path : Path} {content : Content} (h : d.read path = .ok content) :
    ∃ goal, d.locate path = .ok goal ∧ d.node? goal = some (.file content) := by
  unfold read lookup at h
  cases hlocate : d.locate path with
  | error fault =>
    rw [hlocate] at h
    cases h
  | ok goal =>
    rw [hlocate] at h
    cases hnode : d.node? goal with
    | none =>
      simp only [hnode] at h
      cases h
    | some found =>
      cases found with
      | directory =>
        simp only [hnode] at h
        cases h
      | file held =>
        simp only [hnode] at h
        rw [Except.ok.inj h] at hnode
        exact ⟨goal, rfl, hnode⟩

theorem write_eq_ok {d d' : Disk} {path : Path} {content : Content}
    (h : d.write path content = .ok d') : ∃ place, d.locate path = .ok place ∧
      d.node? place ≠ some .directory ∧ d' = d.put place (.file content) := by
  unfold write at h
  split at h
  · cases h
  rename_i place hplace
  split at h
  · cases h
  rename_i hnode
  split at h
  · cases h
  · exact ⟨place, hplace, hnode, (Except.ok.inj h).symm⟩

theorem rename_eq_ok {d d' : Disk} {source path : Path}
    (h : d.rename source path = .ok d') : ∃ content spot goal,
      d.read source = .ok content ∧ d.locate source = .ok spot ∧ d.locateTarget path = .ok goal ∧
        d.node? goal ≠ some .directory ∧ d' = (d.clear spot).put goal (.file content) := by
  unfold rename at h
  split at h
  · cases h
  · cases h
  · cases h
  rename_i content spot goal hread hspot hgoal
  split at h
  · cases h
  rename_i hnode
  split at h
  · cases h
  · exact ⟨content, spot, goal, hread, hspot, hgoal, hnode, (Except.ok.inj h).symm⟩

theorem locate_of_locateTarget {d : Disk} {path goal : Path} (h : d.locateTarget path = .ok goal) :
    d.locate path = .ok goal := by
  unfold locateTarget at h
  split at h
  · split at h
    · cases h
    · cases h
  · split at h
    · cases h
    · rename_i place hplace
      split at h
      · cases h
      · rw [hplace, Except.ok.inj h]

theorem locateTarget_file {d : Disk} {directory place : Path}
    (h : d.enter [] directory = .ok place) {file : String} (hstep : Path.isStep file = true)
    (hback : file ≠ "..") :
    d.locateTarget (directory ++ [file]) = target directory place file := by
  have hmark : (directory ++ [file]).getLast? ≠ some "" := by
    rw [List.getLast?_concat]
    rintro he
    rw [Option.some.inj he] at hstep
    exact absurd hstep (by decide)
  have hmarked : Path.isMarked (directory ++ [file]) = false := by
    rw [Path.isMarked, List.getLast?_concat]
    simp [hstep]
  rw [locateTarget, if_neg hmark, locate_file h hstep hback]
  cases target directory place file with
  | error fault => rfl
  | ok goal => simp only [hmarked, Bool.false_eq_true, if_false]

/-- What keeps a path from being walked keeps every path that goes on from it. -/
theorem pathFault?_append {path : Path} {fault : Fault} (h : pathFault? path = some fault)
    {file : String} (hfile : '\x00' ∉ file.toList) :
    pathFault? (path ++ [file]) = some fault := by
  have hsize : Path.byteSize path ≤ Path.byteSize (path ++ [file]) := by
    simp only [Path.byteSize, List.foldl_append, List.foldl_cons, List.foldl_nil]
    omega
  have hnul : (path ++ [file]).any (fun step => '\x00' ∈ step.toList) =
      path.any fun step => '\x00' ∈ step.toList := by
    simp [hfile]
  unfold pathFault? at h ⊢
  rw [hnul]
  split at h
  · rename_i hany
    rw [if_pos hany]
    exact h
  rename_i hany
  rw [if_neg hany]
  split at h
  · rename_i hlong
    rw [if_pos (Nat.lt_of_lt_of_le hlong hsize)]
    exact h
  · cases h

/-- What keeps a file from being put into a directory that is entered at a place. -/
def obstacle? (d : Disk) (directory place : Path) (file : String) : Option Fault :=
  match target directory place file with
  | .error fault => some fault
  | .ok goal =>
    if d.node? goal = some .directory then some .isADirectory
    else if d.locked.contains goal then some .notPermitted
    else none

section Files
variable {d : Disk} {directory place : Path} {file : String}

theorem obstacle?_congr {d' : Disk} (hlocked : d'.locked = d.locked)
    (hnode : d'.node? (place ++ [file]) = d.node? (place ++ [file])) :
    d'.obstacle? directory place file = d.obstacle? directory place file := by
  rw [obstacle?, obstacle?]
  cases htarget : target directory place file with
  | error fault => rfl
  | ok goal =>
    obtain rfl := target_eq_ok htarget
    simp only [hnode, hlocked]

theorem obstacle?_eq_none (h : d.obstacle? directory place file = none) :
    target directory place file = .ok (place ++ [file]) ∧
      d.node? (place ++ [file]) ≠ some .directory := by
  rw [obstacle?] at h
  cases htarget : target directory place file with
  | error fault =>
    rw [htarget] at h
    cases h
  | ok goal =>
    obtain rfl := target_eq_ok htarget
    rw [htarget] at h
    refine ⟨rfl, fun hnode => ?_⟩
    simp only [if_pos hnode] at h
    cases h

theorem write_file (h : d.enter [] directory = .ok place) (hstep : Path.isStep file = true)
    (hback : file ≠ "..") (content : Content) :
    d.write (directory ++ [file]) content =
      match d.obstacle? directory place file with
      | some fault => .error fault
      | none => .ok (d.put (place ++ [file]) (.file content)) := by
  rw [write, obstacle?, locate_file h hstep hback]
  cases htarget : target directory place file with
  | error fault => rfl
  | ok goal =>
    obtain rfl := target_eq_ok htarget
    simp only [List.contains_iff_mem]
    split
    · rfl
    split <;> rfl

theorem rename_file {path spot : Path} {content : Content} (hread : d.read path = .ok content)
    (hspot : d.locate path = .ok spot) (h : d.enter [] directory = .ok place)
    (hstep : Path.isStep file = true) (hback : file ≠ "..") :
    d.rename path (directory ++ [file]) =
      match d.obstacle? directory place file with
      | some fault => .error fault
      | none => .ok ((d.clear spot).put (place ++ [file]) (.file content)) := by
  rw [rename, obstacle?, hread, hspot, locateTarget_file h hstep hback]
  cases htarget : target directory place file with
  | error fault => rfl
  | ok goal =>
    obtain rfl := target_eq_ok htarget
    simp only [List.contains_iff_mem]
    split
    · rfl
    split <;> rfl

end Files

end Colloquy.Disk
