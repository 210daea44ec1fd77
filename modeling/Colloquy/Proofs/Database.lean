import Colloquy.Database
import Colloquy.Proofs.Disk

/-!
The file of a database on a disk. Opening a database shows the rows of its file, and nothing but
this one file is changed by opening it or by saving rows.
-/

namespace Colloquy

/-- Every step of the path leads down. -/
def Path.Plain (path : Path) : Prop := ∀ step ∈ path, isStep step = true ∧ step ≠ ".."

theorem Path.plain_append {path : Path} (h : Plain path) {step : String}
    (hstep : isStep step = true) (hback : step ≠ "..") : Plain (path ++ [step]) := by
  intro s hs
  rcases List.mem_append.1 hs with hs | hs
  · exact h s hs
  · rw [List.mem_singleton.1 hs]
    exact ⟨hstep, hback⟩

theorem Path.plain_stagesFrom {before path : Path} (hbefore : Plain before)
    (hsteps : ∀ step ∈ path, isStep step = true) :
    ∀ stage ∈ stagesFrom before path, Plain stage := by
  induction path generalizing before with
  | nil =>
    intro stage hstage
    cases hstage
  | cons step rest ih =>
    have hnext : Plain (if step = ".." then before.dropLast else before ++ [step]) := by
      split
      · exact fun s hs => hbefore s (List.dropLast_subset _ hs)
      · rename_i hback
        exact plain_append hbefore (hsteps step List.mem_cons_self) hback
    intro stage hstage
    rcases List.mem_cons.1 hstage with rfl | hstage
    · exact hnext
    · exact ih hnext (fun s hs => hsteps s (List.mem_cons_of_mem _ hs)) stage hstage

/-- The last path that one comes by is plain. -/
theorem Path.plain_stages (path : Path) : Plain (path.stages.getLast?.getD []) := by
  have hnil : Plain [] := by
    intro step hstep
    cases hstep
  cases hlast : path.stages.getLast? with
  | none => exact hnil
  | some stage =>
    exact plain_stagesFrom hnil Disk.isStep_of_mem_steps stage (List.mem_of_getLast? hlast)

namespace Disk

theorem enter_plain {d : Disk} {path place goal : Path} (hplain : Path.Plain path)
    (h : d.enter place path = .ok goal) : goal = place ++ path := by
  induction path generalizing place with
  | nil =>
    rw [List.append_nil]
    exact (Except.ok.inj h).symm
  | cons step rest ih =>
    obtain ⟨hstep, hback⟩ := hplain step List.mem_cons_self
    have hrest : Path.Plain rest := fun s hs => hplain s (List.mem_cons_of_mem _ hs)
    rw [enter, if_neg (by simp [hstep]), if_neg hback] at h
    split at h
    · cases h
    split at h
    · cases h
    · cases h
    · rw [ih hrest h, List.append_assoc]
      rfl

/-- A plain path is its own place. -/
theorem locate_plain {d : Disk} {path goal : Path} (hplain : Path.Plain path)
    (h : d.locate path = .ok goal) : goal = path := by
  unfold locate at h
  split at h
  · cases h
  unfold locateSteps at h
  split at h
  · rename_i hlast
    rw [List.getLast?_eq_none_iff.1 hlast]
    exact (Except.ok.inj h).symm
  rename_i last hlast
  obtain ⟨init, rfl⟩ := List.getLast?_eq_some_iff.1 hlast
  obtain ⟨hstep, hback⟩ := hplain last (by simp)
  rw [List.dropLast_concat] at h
  cases henter : d.enter [] init with
  | error fault =>
    rw [henter] at h
    cases h
  | ok place =>
    have hplace : place = init := enter_plain (fun s hs => hplain s (by simp [hs])) henter
    rw [henter, hplace] at h
    simp only [hstep, Bool.not_true, Bool.false_eq_true, if_false, if_neg hback] at h
    split at h
    · cases h
    · exact (Except.ok.inj h).symm

theorem node?_of_lookup {d : Disk} {path : Path} {node : Node} (hplain : Path.Plain path)
    (h : d.lookup path = .ok node) : d.node? path = some node := by
  unfold lookup at h
  split at h
  · cases h
  rename_i place hlocate
  rw [locate_plain hplain hlocate] at h
  split at h
  · cases h
  · rename_i found hfound
    rw [hfound, Except.ok.inj h]

theorem write_plain {d d' : Disk} {path : Path} {content : Content} (hplain : Path.Plain path)
    (h : d.write path content = .ok d') : d.locate path = .ok path ∧
      d'.node? path = some (.file content) ∧ ChangesOnly (some path) d d' := by
  obtain ⟨place, hlocate, hnode, rfl⟩ := write_eq_ok h
  obtain rfl : place = path := locate_plain hplain hlocate
  have hne : place ≠ [] := by
    rintro rfl
    exact hnode (node?_nil d)
  refine ⟨hlocate, node?_put_self d hne _, keeps_put hnode _, fun other hother => ?_⟩
  exact node?_put_of_ne d (fun he => hother (congrArg some he.symm)) _

end Disk

namespace Database
open Disk

/-- The path of the file of a database that is written so, if it has one. -/
def place? (written : String) : Option Path :=
  match Location.ofString? written with
  | none => none
  | some l =>
    if l.isTransient then none else some ((Path.ofString l.name).stages.getLast?.getD [])

theorem plain_place {written : String} {path : Path} (h : place? written = some path) :
    Path.Plain path := by
  unfold place? at h
  split at h
  · cases h
  split at h
  · cases h
  · rw [← Option.some.inj h]
    exact Path.plain_stages _

theorem pathOf_eq_ok {d : Disk} {name : String} {path : Path} (h : pathOf d name = .ok path) :
    path = (Path.ofString name).stages.getLast?.getD [] := by
  unfold pathOf at h
  simp only at h
  split at h
  · cases h
  split at h
  · cases h
  · exact (Except.ok.inj h).symm

/-- The file, if there is one, holds the rows. -/
def Holds (d : Disk) (file : Option Path) (rows : Source.Rows) : Prop :=
  ∀ path, file = some path → d.node? path = some (.file (.database rows))

/-- Saved rows are in the file of the database. -/
theorem save_ok {db : Database} {d d' : Disk} (hplain : ∀ path, db.file = some path → path.Plain)
    (h : db.save d = .ok d') : Holds d' db.file db.rows ∧ ChangesOnly db.file d d' := by
  unfold save at h
  split at h
  · cases h
  cases hfile : db.file with
  | none =>
    rw [hfile] at h
    rw [← Except.ok.inj h]
    refine ⟨fun path hpath => ?_, changesOnly_refl none d⟩
    cases hpath
  | some path =>
    rw [hfile] at h
    simp only at h
    cases hwrite : d.write path (.database db.rows) with
    | error fault =>
      rw [hwrite] at h
      cases h
    | ok written =>
      rw [hwrite] at h
      rw [← Except.ok.inj h]
      obtain ⟨-, hnode, hchanges⟩ := write_plain (hplain path hfile) hwrite
      refine ⟨fun other hother => ?_, hchanges⟩
      rw [← Option.some.inj hother]
      exact hnode

theorem create_ok {file : Option Path} {isReadOnly : Bool} {d d' : Disk} {db : Database}
    (h : create file isReadOnly d = (.ok db, d')) :
    db = ⟨file, isReadOnly, {}⟩ ∧ db.save d = .ok d' := by
  unfold create at h
  simp only at h
  split at h
  · cases h
  · rename_i made hsave
    obtain ⟨hdb, rfl⟩ := Prod.mk.inj h
    obtain rfl := Except.ok.inj hdb
    exact ⟨rfl, hsave⟩

/-- A database that was opened in a file: its rows were there, or it is new. -/
theorem openFile_cases {d d' : Disk} {path : Path} (hplain : path.Plain) {access : Access}
    {isReadOnly : Bool} {db : Database}
    (h : openFile d path access isReadOnly = (.ok db, d')) : db.file = some path ∧
      (d.node? path = some (.file (.database db.rows)) ∧ d' = d ∨
        db.rows = {} ∧ (∀ rows, d.node? path ≠ some (.file (.database rows))) ∧
          Holds d' db.file db.rows ∧ ChangesOnly db.file d d') := by
  have hcreated {made : Disk} (hcreate : create (some path) isReadOnly made = (.ok db, d')) :
      db.file = some path ∧ db.rows = {} ∧ Holds d' db.file db.rows ∧
        ChangesOnly db.file made d' := by
    obtain ⟨rfl, hsave⟩ := create_ok hcreate
    refine ⟨rfl, rfl, save_ok (fun other hother => ?_) hsave⟩
    rw [← Option.some.inj hother]
    exact hplain
  unfold openFile at h
  split at h
  · rename_i content hlookup
    have hnode := node?_of_lookup hplain hlookup
    split at h
    · cases h
    · rename_i hrows
      obtain ⟨hfile, hempty, hholds, hchanges⟩ := hcreated h
      refine ⟨hfile, .inr ⟨hempty, fun rows hdatabase => ?_, hholds, hchanges⟩⟩
      rw [hnode] at hdatabase
      cases hdatabase
      cases hrows
    · rename_i rows hrows
      obtain ⟨hdb, rfl⟩ := Prod.mk.inj h
      obtain rfl := Except.ok.inj hdb
      refine ⟨rfl, .inl ⟨?_, rfl⟩⟩
      cases content with
      | database held =>
        cases hrows
        exact hnode
      | bytes data =>
        rw [rowsOf] at hrows
        split at hrows <;> cases hrows
  · cases h
  · rename_i hlookup
    split at h
    · split at h
      · cases h
      rename_i made hwrite
      obtain ⟨hlocate, -, hmade⟩ := write_plain hplain hwrite
      obtain ⟨hfile, hempty, hholds, hchanges⟩ := hcreated h
      rw [← hfile] at hmade
      refine ⟨hfile, .inr ⟨hempty, fun rows hdatabase => ?_, hholds,
        changesOnly_trans hmade hchanges⟩⟩
      rw [lookup, hlocate] at hlookup
      simp only [hdatabase] at hlookup
      cases hlookup
    · cases h
  · cases h

/-- A database that was opened: it has no file and no rows, or its rows were in its file, or it is
new there. -/
theorem openAt_cases {d d' : Disk} {written : String} {db : Database}
    (h : openAt d written = (.ok db, d')) : db.file = place? written ∧
      (db.file = none ∧ db.rows = {} ∧ d' = d ∨
        ∃ path, db.file = some path ∧
          (d.node? path = some (.file (.database db.rows)) ∧ d' = d ∨
            db.rows = {} ∧ (∀ rows, d.node? path ≠ some (.file (.database rows))) ∧
              Holds d' db.file db.rows ∧ ChangesOnly db.file d d')) := by
  unfold openAt at h
  split at h
  · cases h
  rename_i l hlocation
  split at h
  · rename_i htransient
    have hplace : place? written = none := by
      rw [place?, hlocation]
      exact if_pos htransient
    obtain ⟨rfl, hsave⟩ := create_ok h
    refine ⟨hplace.symm, .inl ⟨rfl, rfl, ?_⟩⟩
    unfold save at hsave
    split at hsave
    · cases hsave
    · exact (Except.ok.inj hsave).symm
  rename_i htransient
  split at h
  · cases h
  rename_i path hpath
  have hplace : place? written = some path := by
    rw [place?, hlocation, pathOf_eq_ok hpath]
    exact if_neg htransient
  split at h
  · obtain ⟨hfile, hcases⟩ := openFile_cases (plain_place hplace) h
    exact ⟨hfile.trans hplace.symm, .inr ⟨path, hfile, hcases⟩⟩
  · cases h

/-- An open database is in its file, and only that has been changed. -/
theorem openAt_ok {d d' : Disk} {written : String} {db : Database}
    (h : openAt d written = (.ok db, d')) :
    Holds d' db.file db.rows ∧ ChangesOnly db.file d d' := by
  obtain ⟨-, ⟨hfile, -, rfl⟩ | ⟨path, hfile, ⟨hnode, rfl⟩ | ⟨-, -, hholds, hchanges⟩⟩⟩ :=
    openAt_cases h
  · refine ⟨fun path hpath => ?_, changesOnly_refl _ d'⟩
    rw [hfile] at hpath
    cases hpath
  · refine ⟨fun other hother => ?_, changesOnly_refl _ d'⟩
    rw [hfile] at hother
    rw [← Option.some.inj hother]
    exact hnode
  · exact ⟨hholds, hchanges⟩

/-- A database is opened once more without a change. -/
theorem openAt_again {d d₁ d₂ : Disk} {written : String} {db db' : Database}
    (h : openAt d written = (.ok db, d₁)) (hagain : openAt d₁ written = (.ok db', d₂)) :
    db'.rows = db.rows ∧ d₂ = d₁ := by
  have hholds := (openAt_ok h).1
  obtain ⟨hplace, hfirst⟩ := openAt_cases h
  obtain ⟨hplace', hcases⟩ := openAt_cases hagain
  have hfile : db'.file = db.file := hplace'.trans hplace.symm
  rw [hfile] at hcases
  -- the file holds the rows now, so the second opening cannot make it anew
  rcases hcases with ⟨hnone, hempty, rfl⟩ | ⟨path, hpath, ⟨hnode, rfl⟩ | ⟨-, hother, -⟩⟩
  · rcases hfirst with ⟨-, hrows, -⟩ | ⟨path, hpath, -⟩
    · exact ⟨hempty.trans hrows.symm, rfl⟩
    · rw [hnone] at hpath
      cases hpath
  · rw [hholds path hpath] at hnode
    simp only [Option.some.injEq, Node.file.injEq, Content.database.injEq] at hnode
    exact ⟨hnode.symm, rfl⟩
  · exact absurd (hholds path hpath) (hother _)

end Database

end Colloquy
