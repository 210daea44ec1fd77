import Colloquy.Proofs.Index.Writing
import Colloquy.Proofs.Store.States

/-!
The flush of one index is not felt by another, so each comes to what it would have come to first of
all.
-/

namespace Colloquy.Store
open Colloquy.Disk

variable {s t u : Store} {name other : String} {i : Index} {indexes : List (String × Index)}

/-- Why the file of an index could not be written, if it has to be and cannot. -/
def failure? (s : Store) (name : String) (i : Index) : Option Fault :=
  if i.dirty then
    match (Index.writeAt s.disk (s.pathOf name) name i.entries).1 with
    | .error fault => some fault
    | .ok _ => none
  else none

theorem failure?_clean (h : i.dirty = false) : s.failure? name i = none := by
  rw [failure?, h, if_neg Bool.false_ne_true]

theorem failure?_failed {fault : Fault} {d : Disk} (h : i.dirty = true)
    (hwrite : Index.writeAt s.disk (s.pathOf name) name i.entries = (.error fault, d)) :
    s.failure? name i = some fault := by
  rw [failure?, if_pos h, hwrite]

theorem failure?_written {d : Disk} (h : i.dirty = true)
    (hwrite : Index.writeAt s.disk (s.pathOf name) name i.entries = (.ok (), d)) :
    s.failure? name i = none := by
  rw [failure?, if_pos h, hwrite]

theorem flushLoaded_fst (s : Store) (name : String) (i : Index) :
    (s.flushLoaded name i).1 =
      match s.failure? name i with
      | some fault => .error (.disk fault)
      | none => .ok i.dirty := by
  rcases flushLoaded_outcome s name i with
    ⟨hclean, h⟩ | ⟨hdirty, ⟨fault, d, hwrite, h⟩ | ⟨d, hwrite, h⟩⟩
  · rw [h, failure?_clean hclean, hclean]
  · rw [h, failure?_failed hdirty hwrite]
  · rw [h, failure?_written hdirty hwrite, hdirty]

/-! ## What the flush of one index is to the others -/

/-- An index is as it was, on a disk on which it fares as before. -/
structure Untouched (name : String) (s t : Store) : Prop where
  index : Keyed.find? name t.indexes = Keyed.find? name s.indexes
  directory : t.directory = s.directory
  disk : Index.Spared (Path.ofString s.directory) name s.disk t.disk

theorem untouched_refl (name : String) (s : Store) : Untouched name s s :=
  ⟨rfl, rfl, Index.spared_refl _ _ _⟩

theorem untouched_trans (h : Untouched name s t) (h' : Untouched name t u) :
    Untouched name s u := by
  have hdisk := h'.disk
  rw [h.directory] at hdisk
  exact ⟨h'.index.trans h.index, h'.directory.trans h.directory, Index.spared_trans h.disk hdisk⟩

theorem untouched_flushLoaded (hname : Index.isName name = true)
    (hother : Index.isName other = true) (hne : other ≠ name) (i : Index) :
    Untouched other s (s.flushLoaded name i).2 := by
  have hspared : Index.Spared (Path.ofString s.directory) other s.disk
      (Index.writeAt s.disk (s.pathOf name) name i.entries).2 :=
    Index.spared_writeAt hname hother hne i.entries
  rcases flushLoaded_outcome s name i with
    ⟨-, h⟩ | ⟨-, ⟨fault, d, hwrite, h⟩ | ⟨d, hwrite, h⟩⟩
  · rw [h]
    exact untouched_refl other s
  · rw [hwrite] at hspared
    rw [h]
    exact ⟨rfl, rfl, hspared⟩
  · rw [hwrite] at hspared
    rw [h]
    exact ⟨Keyed.find?_insert_of_ne hne _ _, rfl, hspared⟩

theorem untouched_flushEach (hnames : ∀ e ∈ indexes, Index.isName e.1 = true)
    (hother : Index.isName other = true) (hnot : other ∉ indexes.map Prod.fst) :
    Untouched other s (s.flushEach indexes).2 := by
  induction indexes generalizing s with
  | nil => exact untouched_refl other s
  | cons head rest ih =>
    rw [List.map_cons, List.mem_cons, not_or] at hnot
    have hfirst : Untouched other s (s.flushLoaded head.1 head.2).2 :=
      untouched_flushLoaded (hnames head List.mem_cons_self) hother hnot.1 head.2
    rw [flushEach_cons]
    exact untouched_trans hfirst (ih (fun e he => hnames e (List.mem_cons_of_mem _ he)) hnot.2)

theorem failure?_of_untouched (h : Untouched name s t) (i : Index) :
    t.failure? name i = s.failure? name i := by
  have houtcome := h.disk.outcome i.entries
  rw [failure?, failure?, pathOf, pathOf, h.directory, houtcome]

/-- Each flush comes to what it would have come to on its own. -/
theorem flushEach_fst (hnames : ∀ e ∈ indexes, Index.isName e.1 = true)
    (hnodup : (indexes.map Prod.fst).Nodup) :
    (s.flushEach indexes).1 = indexes.map fun e => (s.flushLoaded e.1 e.2).1 := by
  induction indexes generalizing s with
  | nil => rfl
  | cons head rest ih =>
    rw [List.map_cons, List.nodup_cons] at hnodup
    have hrest := fun e he => hnames e (List.mem_cons_of_mem _ he)
    rw [flushEach_cons, List.map_cons, ih hrest hnodup.2]
    -- the first flush is not felt by those after it
    refine congrArg (List.cons _) (List.map_congr_left fun e he => ?_)
    have hne : e.1 ≠ head.1 := by
      intro hsame
      rw [← hsame] at hnodup
      exact hnodup.1 (List.mem_map_of_mem he)
    have huntouched : Untouched e.1 s (s.flushLoaded head.1 head.2).2 :=
      untouched_flushLoaded (hnames head List.mem_cons_self) (hrest e he) hne head.2
    rw [flushLoaded_fst, flushLoaded_fst, failure?_of_untouched huntouched]

/-- What a run over indexes does to one of them is what its own flush does. -/
theorem flushEach_at (hnames : ∀ e ∈ indexes, Index.isName e.1 = true)
    (hnodup : (indexes.map Prod.fst).Nodup) (hmem : (name, i) ∈ indexes) :
    ∃ u, Untouched name s u ∧
      Untouched name (u.flushLoaded name i).2 (s.flushEach indexes).2 := by
  induction indexes generalizing s with
  | nil => cases hmem
  | cons head rest ih =>
    rw [List.map_cons, List.nodup_cons] at hnodup
    have hrest := fun e he => hnames e (List.mem_cons_of_mem _ he)
    have hhead : Index.isName head.1 = true := hnames head List.mem_cons_self
    rw [flushEach_cons]
    -- the index is flushed first, or after one that it does not feel
    rcases List.mem_cons.1 hmem with rfl | hmem
    · exact ⟨s, untouched_refl name s, untouched_flushEach hrest hhead hnodup.1⟩
    · have hne : name ≠ head.1 := by
        intro hsame
        rw [← hsame] at hnodup
        exact hnodup.1 (List.mem_map_of_mem hmem)
      have hbefore : Untouched name s (s.flushLoaded head.1 head.2).2 :=
        untouched_flushLoaded hhead (hrest _ hmem) hne head.2
      obtain ⟨u, hu, hafter⟩ := ih hrest hnodup.2 hmem
      exact ⟨u, untouched_trans hbefore hu, hafter⟩

/-! ## What comes of each index -/

/-- The file of an index is what it was, and reads as it did if it could be read. -/
structure FileKept (name : String) (s t : Store) : Prop where
  directory : t.directory = s.directory
  held : t.disk.fileAt? (Index.filePlace (Path.ofString s.directory) name) =
    s.disk.fileAt? (Index.filePlace (Path.ofString s.directory) name)
  read : ∀ content, s.file name = .ok content → t.file name = .ok content

theorem fileKept_of_disk (hdirectory : t.directory = s.directory) (hkeeps : Keeps s.disk t.disk)
    (hheld : t.disk.fileAt? (Index.filePlace (Path.ofString s.directory) name) =
      s.disk.fileAt? (Index.filePlace (Path.ofString s.directory) name)) :
    FileKept name s t := by
  refine ⟨hdirectory, hheld, fun content hread => ?_⟩
  rw [file, pathOf, hdirectory]
  exact Index.read_of_fileAt? hkeeps hheld hread

theorem fileKept_of_untouched (h : Untouched name s t) : FileKept name s t :=
  fileKept_of_disk h.directory h.disk.keeps h.disk.file

theorem fileKept_trans (h : FileKept name s t) (h' : FileKept name t u) : FileKept name s u := by
  have hheld := h'.held
  rw [h.directory] at hheld
  exact ⟨h'.directory.trans h.directory, hheld.trans h.held,
    fun content hread => h'.read content (h.read content hread)⟩

/-- The index is written in full and clean. -/
def Written (name : String) (i : Index) (t : Store) : Prop :=
  Keyed.find? name t.indexes = some { i with dirty := false } ∧
    t.file name = .ok (.bytes (Index.encode name i.entries))

/-- What is left of an index by a flush: a clean one is not touched, and an unflushed one is written
or else left with its changes and its former file. -/
structure FlushedTo (name : String) (i : Index) (s t : Store) : Prop where
  clean : i.dirty = false → Untouched name s t
  written : i.dirty = true → s.failure? name i = none → Written name i t
  failed : ∀ fault, s.failure? name i = some fault →
    Keyed.find? name t.indexes = some i ∧ FileKept name s t

theorem flushedTo_flushLoaded (hname : Index.isName name = true)
    (hfind : Keyed.find? name s.indexes = some i) :
    FlushedTo name i s (s.flushLoaded name i).2 := by
  rcases flushLoaded_outcome s name i with
    ⟨hclean, h⟩ | ⟨hdirty, ⟨fault, d, hwrite, h⟩ | ⟨d, hwrite, h⟩⟩
  · refine ⟨fun _ => ?_, fun hdirty => ?_, fun fault hfault => ?_⟩
    · rw [h]
      exact untouched_refl name s
    · rw [hclean] at hdirty
      cases hdirty
    · rw [failure?_clean hclean] at hfault
      cases hfault
  · refine ⟨fun hclean => ?_, fun _ hnone => ?_, fun other hother => ?_⟩
    · rw [hdirty] at hclean
      cases hclean
    · rw [failure?_failed hdirty hwrite] at hnone
      cases hnone
    · obtain ⟨hkeeps, -⟩ :=
        Index.writeAt_frame s.disk (Path.ofString s.directory) hname i.entries
      rw [← pathOf, hwrite] at hkeeps
      rw [h]
      exact ⟨hfind, fileKept_of_disk rfl hkeeps (Index.fileAt?_failed hname hwrite)⟩
  · refine ⟨fun hclean => ?_, fun _ _ => ?_, fun fault hfault => ?_⟩
    · rw [hdirty] at hclean
      cases hclean
    · rw [h]
      exact ⟨Keyed.find?_insert_self _ _ _, Index.read_writeAt hwrite⟩
    · rw [failure?_written hdirty hwrite] at hfault
      cases hfault

/-- What is done to other indexes before and after makes no difference. -/
theorem flushedTo_of_untouched {s' t' : Store} (hbefore : Untouched name s s')
    (h : FlushedTo name i s' t') (hafter : Untouched name t' t) : FlushedTo name i s t := by
  have hkept := fileKept_of_untouched hafter
  refine ⟨fun hclean => ?_, fun hdirty hnone => ?_, fun fault hfault => ?_⟩
  · exact untouched_trans hbefore (untouched_trans (h.clean hclean) hafter)
  · rw [← failure?_of_untouched hbefore] at hnone
    obtain ⟨hindex, hfile⟩ := h.written hdirty hnone
    exact ⟨hafter.index.trans hindex, hkept.read _ hfile⟩
  · rw [← failure?_of_untouched hbefore] at hfault
    obtain ⟨hindex, hfile⟩ := h.failed fault hfault
    exact ⟨hafter.index.trans hindex,
      fileKept_trans (fileKept_of_untouched hbefore) (fileKept_trans hfile hkept)⟩

theorem flushedTo_flushAll (h : WellFormed s) (hfind : Keyed.find? name s.indexes = some i) :
    FlushedTo name i s s.flushAll.2 := by
  have hmem := Keyed.mem_of_find? hfind
  obtain ⟨u, hu, hafter⟩ := flushEach_at (isName_of_mem h) (Keyed.nodup_keys h.ordered) hmem
  have hflushed : FlushedTo name i u (u.flushLoaded name i).2 :=
    flushedTo_flushLoaded (h.named name i hfind) (hu.index.trans hfind)
  exact flushedTo_of_untouched hu hflushed hafter

theorem dirty_of_failure? {fault : Fault} (h : s.failure? name i = some fault) :
    i.dirty = true := by
  cases hdirty : i.dirty with
  | true => rfl
  | false =>
    rw [failure?_clean hdirty] at h
    cases h

/-- An index as it is kept by a flush: clean unless it failed. -/
def settled (s : Store) (name : String) (i : Index) : Index :=
  if (s.failure? name i).isSome then i else { i with dirty := false }

theorem settled_of_failure? {fault : Fault} (h : s.failure? name i = some fault) :
    s.settled name i = i := by
  rw [settled, h, Option.isSome_some, if_pos rfl]

theorem settled_of_none (h : s.failure? name i = none) :
    s.settled name i = { i with dirty := false } := by
  rw [settled, h, Option.isSome_none, if_neg Bool.false_ne_true]

/-- Unflushed is what failed. -/
theorem dirty_settled (s : Store) (name : String) (i : Index) :
    (s.settled name i).dirty = (s.failure? name i).isSome := by
  cases hfailure : s.failure? name i with
  | none => rw [settled_of_none hfailure, Option.isSome_none]
  | some fault =>
    rw [settled_of_failure? hfailure, dirty_of_failure? hfailure, Option.isSome_some]

theorem indexes_flushAll (h : WellFormed s) :
    s.flushAll.2.indexes = s.indexes.map fun e => (e.1, s.settled e.1 e.2) := by
  have hafter : WellFormed s.flushAll.2 := wellFormed_flushEach h (isName_of_mem h)
  refine Keyed.eq_of_find? hafter.ordered (Keyed.sorted_map s.settled h.ordered) fun name => ?_
  rw [Keyed.find?_map]
  cases hfind : Keyed.find? name s.indexes with
  | some i =>
    have hflushed := flushedTo_flushAll h hfind
    rw [Option.map_some]
    cases hfailure : s.failure? name i with
    | some fault =>
      rw [settled_of_failure? hfailure]
      exact (hflushed.failed fault hfailure).1
    | none =>
      rw [settled_of_none hfailure]
      cases hdirty : i.dirty with
      | true => exact (hflushed.written hdirty hfailure).1
      | false =>
        have hsame : i = { i with dirty := false } := by rw [← hdirty]
        rw [(hflushed.clean hdirty).index, hfind, ← hsame]
  | none =>
    -- what is not there is not put there
    cases hthere : Keyed.find? name s.flushAll.2.indexes with
    | none => rfl
    | some j =>
      have hname : Index.isName name = true := hafter.named name j hthere
      have huntouched : Untouched name s s.flushAll.2 :=
        untouched_flushEach (isName_of_mem h) hname ((Keyed.find?_eq_none h.ordered).1 hfind)
      rw [huntouched.index, hfind] at hthere
      cases hthere

/-! ## What is reported -/

/-- The first failure is reported, and without one the number of the indexes that were unflushed. -/
theorem countWritten_flushes (s : Store) (indexes : List (String × Index)) :
    (∀ e ∈ indexes, s.failure? e.1 e.2 = none) ∧
        Cabinet.countWritten (indexes.map fun e => (s.flushLoaded e.1 e.2).1) =
          .ok (indexes.countP fun e => e.2.dirty) ∨
      ∃ before e after fault, indexes = before ++ e :: after ∧
        (∀ e ∈ before, s.failure? e.1 e.2 = none) ∧ s.failure? e.1 e.2 = some fault ∧
        Cabinet.countWritten (indexes.map fun e => (s.flushLoaded e.1 e.2).1) = .error (.disk fault) := by
  induction indexes with
  | nil =>
    left
    constructor
    · intro e he
      cases he
    · rfl
  | cons head rest ih =>
    rw [List.map_cons, flushLoaded_fst]
    cases hfailure : s.failure? head.1 head.2 with
    | some fault => exact .inr ⟨[], head, rest, fault, rfl, by simp, hfailure, rfl⟩
    | none =>
      have hcons {all : List (String × Index)} (hall : ∀ e ∈ all, s.failure? e.1 e.2 = none) :
          ∀ e ∈ head :: all, s.failure? e.1 e.2 = none := by
        intro e he
        rcases List.mem_cons.1 he with rfl | he
        · exact hfailure
        · exact hall e he
      simp only [Cabinet.countWritten]
      rcases ih with ⟨hnone, hcount⟩ | ⟨before, e, after, fault, rfl, hbefore, he, hcount⟩
      · rw [hcount, List.countP_cons]
        refine .inl ⟨hcons hnone, ?_⟩
        cases head.2.dirty <;> rfl
      · rw [hcount]
        exact .inr ⟨head :: before, e, after, fault, rfl, hcons hbefore, he, rfl⟩

theorem flushAll_fst (h : WellFormed s) :
    s.flushAll.1 = Cabinet.countWritten (s.indexes.map fun e => (s.flushLoaded e.1 e.2).1) := by
  rw [← flushEach_fst (isName_of_mem h) (Keyed.nodup_keys h.ordered)]
  rfl

/-- Without a failure the number of the unflushed indexes is reported, and else the failure of the
index whose name is the smallest among those that failed. -/
theorem flushAll_reports (h : WellFormed s) :
    (∀ name i, Keyed.find? name s.indexes = some i → s.failure? name i = none) ∧
        s.flushAll.1 = .ok (s.indexes.countP fun e => e.2.dirty) ∨
      ∃ name i fault, Keyed.find? name s.indexes = some i ∧ s.failure? name i = some fault ∧
        (∀ other j, Keyed.find? other s.indexes = some j → s.failure? other j ≠ none →
          name ≤ other) ∧
        s.flushAll.1 = .error (.disk fault) := by
  rw [flushAll_fst h]
  rcases countWritten_flushes s s.indexes with
    ⟨hnone, hcount⟩ | ⟨before, e, after, fault, hsplit, hbefore, he, hcount⟩
  · refine .inl ⟨fun name i hfind => ?_, hcount⟩
    exact hnone _ (Keyed.mem_of_find? hfind)
  · have hmem : e ∈ s.indexes := by simp [hsplit]
    refine .inr ⟨e.1, e.2, fault, Keyed.find?_of_mem h.ordered hmem, he, ?_, hcount⟩
    intro other j hfind hfailed
    have hj := Keyed.mem_of_find? hfind
    have hordered := h.ordered
    rw [hsplit] at hj hordered
    -- those before it did not fail, and those after it have greater names
    rcases List.mem_append.1 hj with hj | hj
    · exact absurd (hbefore _ hj) hfailed
    rcases List.mem_cons.1 hj with rfl | hj
    · exact String.le_refl _
    · have hafter := (List.pairwise_cons.1 (List.pairwise_append.1 hordered).2.1).1 _ hj
      have hlt : e.1 < other := compareOfLessAndEq_eq_lt.1 hafter
      exact Std.le_of_lt hlt

/-! ## Flushing again -/

theorem flushEach_clean (hclean : ∀ e ∈ indexes, e.2.dirty = false) :
    s.flushEach indexes = (indexes.map fun _ => .ok false, s) := by
  induction indexes with
  | nil => rfl
  | cons head rest ih =>
    have hrest := ih fun e he => hclean e (List.mem_cons_of_mem _ he)
    have hhead : s.flushLoaded head.1 head.2 = (.ok false, s) := by
      rw [flushLoaded_def, hclean head List.mem_cons_self]
      rfl
    rw [flushEach_cons, hhead, hrest]
    rfl

/-- Nothing is left to do after a flush that reports no failure. -/
theorem flushAll_again (h : WellFormed s) {written : Nat} (hflush : s.flushAll.1 = .ok written) :
    s.flushAll.2.flushAll = (.ok 0, s.flushAll.2) := by
  have hafter : WellFormed s.flushAll.2 := wellFormed_flushEach h (isName_of_mem h)
  have hclean : ∀ e ∈ s.flushAll.2.indexes, e.2.dirty = false := by
    intro e he
    exact clean_of_flushAll hflush e.1 e.2 (Keyed.find?_of_mem hafter.ordered he)
  have hcount (indexes : List (String × Index)) :
      Cabinet.countWritten (indexes.map fun _ => .ok false) = .ok 0 := by
    induction indexes with
    | nil => rfl
    | cons head rest ih => rw [List.map_cons, Cabinet.countWritten, ih]; rfl
  rw [flushAll_def, flushEach_clean hclean]
  simp only [hcount]

/-- The indexes that failed are those that are still to be flushed. -/
theorem countP_flushAll (h : WellFormed s) :
    (s.flushAll.2.indexes.countP fun e => e.2.dirty) =
      s.indexes.countP fun e => (s.failure? e.1 e.2).isSome := by
  rw [indexes_flushAll h, List.countP_map]
  refine List.countP_congr fun e _ => ?_
  rw [Function.comp_apply, dirty_settled]

/-- On a disk on which nothing keeps them from being written, just those that failed are written. -/
theorem flushAll_removed (h : WellFormed s) {d : Disk}
    (hremoved : ∀ name i, Keyed.find? name s.indexes = some i → s.failure? name i ≠ none →
      (Index.writeAt d (s.pathOf name) name i.entries).1 = .ok ()) :
    let again : Store := { s.flushAll.2 with disk := d }
    again.flushAll.1 = .ok (s.indexes.countP fun e => (s.failure? e.1 e.2).isSome) ∧
      ∀ name i, Keyed.find? name s.indexes = some i →
        (s.failure? name i ≠ none → Written name i again.flushAll.2) ∧
        (s.failure? name i = none → Untouched name again again.flushAll.2) := by
  intro again
  have hafter : WellFormed s.flushAll.2 := wellFormed_flushEach h (isName_of_mem h)
  have hagain : WellFormed again := wellFormed_disk hafter d
  have hpath (name : String) : again.pathOf name = s.pathOf name := by
    rw [pathOf, pathOf, show again.directory = s.directory from flushEach_directory s s.indexes]
  have hfound {name : String} {i : Index} (hfind : Keyed.find? name s.indexes = some i) :
      Keyed.find? name again.indexes = some (s.settled name i) := by
    change Keyed.find? name s.flushAll.2.indexes = some (s.settled name i)
    rw [indexes_flushAll h, Keyed.find?_map, hfind]
    rfl
  -- a clean index does not fail, and the others are those that failed before
  have hnone {name : String} {i : Index} (hfind : Keyed.find? name s.indexes = some i) :
      again.failure? name (s.settled name i) = none := by
    cases hfailure : s.failure? name i with
    | none =>
      rw [settled_of_none hfailure]
      rfl
    | some fault =>
      have hwrite := hremoved name i hfind (by simp [hfailure])
      rw [settled_of_failure? hfailure, failure?, if_pos (dirty_of_failure? hfailure), hpath,
        show again.disk = d from rfl, hwrite]
  refine ⟨?_, fun name i hfind => ⟨fun hfailed => ?_, fun hwritten => ?_⟩⟩
  · rcases flushAll_reports hagain with ⟨-, hcount⟩ | ⟨name, j, fault, hj, hfault, -⟩
    · exact hcount.trans (congrArg Except.ok (countP_flushAll h))
    · -- what is there now was there before the first flush
      have hmem := Keyed.mem_of_find? hj
      rw [show again.indexes = s.flushAll.2.indexes from rfl, indexes_flushAll h] at hmem
      obtain ⟨e, he, hsame⟩ := List.mem_map.1 hmem
      obtain ⟨rfl, rfl⟩ := Prod.mk.inj hsame
      rw [hnone (Keyed.find?_of_mem h.ordered he)] at hfault
      cases hfault
  · obtain ⟨fault, hfault⟩ := Option.ne_none_iff_exists'.1 hfailed
    have hflushed := flushedTo_flushAll hagain (hfound hfind)
    have hclear := hnone hfind
    -- its changes were kept, so they are what is written now
    rw [settled_of_failure? hfault] at hflushed hclear
    exact hflushed.written (dirty_of_failure? hfault) hclear
  · have hflushed := flushedTo_flushAll hagain (hfound hfind)
    rw [settled_of_none hwritten] at hflushed
    exact hflushed.clean rfl

/-- A flush of all attempts every unflushed index, whichever of the others cannot be written. A
clean index is not touched, one whose file can be written is written, and one whose file cannot
keeps its changes and its file. The number of the indexes written is reported if none failed, and
else the failure of the one with the smallest name. When what kept them from being written is gone,
flushing again writes just those that had failed; after a success it does nothing. -/
theorem flushAll_attempts_every (h : Arises s) :
    let flushed := s.flushAll.2
    (∀ name i, Keyed.find? name s.indexes = some i → FlushedTo name i s flushed) ∧
    ((∀ name i, Keyed.find? name s.indexes = some i → s.failure? name i = none) ∧
        s.flushAll.1 = .ok (s.indexes.countP fun e => e.2.dirty) ∨
      ∃ name i fault, Keyed.find? name s.indexes = some i ∧ s.failure? name i = some fault ∧
        (∀ other j, Keyed.find? other s.indexes = some j → s.failure? other j ≠ none →
          name ≤ other) ∧
        s.flushAll.1 = .error (.disk fault)) ∧
    (∀ d : Disk,
      (∀ name i, Keyed.find? name s.indexes = some i → s.failure? name i ≠ none →
        (Index.writeAt d (s.pathOf name) name i.entries).1 = .ok ()) →
      let again : Store := { flushed with disk := d }
      again.flushAll.1 = .ok (s.indexes.countP fun e => (s.failure? e.1 e.2).isSome) ∧
        ∀ name i, Keyed.find? name s.indexes = some i →
          (s.failure? name i ≠ none → Written name i again.flushAll.2) ∧
          (s.failure? name i = none → Untouched name again again.flushAll.2)) ∧
    ∀ written, s.flushAll.1 = .ok written → flushed.flushAll = (.ok 0, flushed) := by
  intro flushed
  have hwell := wellFormed_of_arises h
  refine ⟨?_, flushAll_reports hwell, ?_, ?_⟩
  · intro name i hfind
    exact flushedTo_flushAll hwell hfind
  · intro d hremoved
    exact flushAll_removed hwell hremoved
  · intro written hflush
    exact flushAll_again hwell hflush

/-- Three unflushed indexes and a clean one. One staging file cannot be written, and one file cannot
be replaced. -/
def hindered : Store :=
  let s := opened.after
    [.put "a" 1 (.number 1), .put "b" 2 (.number 2), .put "c" 3 (.number 3), .index "d"]
  { s with disk := { s.disk with locked := [["idx", "b.idx.tmp"], ["idx", "c.idx"]] } }

/-- The first of the three is written, the others are left, and written when they can be. -/
theorem flushAll_attempts_every_hindered :
    let flushed := hindered.flushAll.2
    let again : Store := { flushed with disk := { flushed.disk with locked := [] } }
    hindered.flushAll.1 = .error (.disk .notPermitted) ∧
      Written "a" ⟨[(1, .number 1)], true⟩ flushed ∧
      Keyed.find? "b" flushed.indexes = some ⟨[(2, .number 2)], true⟩ ∧
      FileKept "c" hindered flushed ∧
      Untouched "d" hindered flushed ∧
      again.flushAll.1 = .ok 2 ∧
      Written "b" ⟨[(2, .number 2)], true⟩ again.flushAll.2 ∧
      Untouched "a" again again.flushAll.2 ∧
      again.flushAll.2.flushAll.1 = .ok 0 := by
  intro flushed again
  have hopen : (openAt {} "idx").1 = .ok opened := rfl
  have harises : Arises hindered := (arises_after (.opened hopen) _).disturbed _
  have hagain : Arises again := (harises.asked (.operation .flushAll)).disturbed _
  have ha : Keyed.find? "a" hindered.indexes = some ⟨[(1, .number 1)], true⟩ := rfl
  have hb : Keyed.find? "b" hindered.indexes = some ⟨[(2, .number 2)], true⟩ := rfl
  have hc : Keyed.find? "c" hindered.indexes = some ⟨[(3, .number 3)], true⟩ := rfl
  have hd : Keyed.find? "d" hindered.indexes = some ⟨[], false⟩ := rfl
  have hgoes : hindered.failure? "a" ⟨[(1, .number 1)], true⟩ = none := by decide +kernel
  have hstaging : hindered.failure? "b" ⟨[(2, .number 2)], true⟩ = some .notPermitted := by
    decide +kernel
  have hrename : hindered.failure? "c" ⟨[(3, .number 3)], true⟩ = some .notPermitted := by
    decide +kernel
  have hremoved : ∀ name i, Keyed.find? name hindered.indexes = some i →
      hindered.failure? name i ≠ none →
      (Index.writeAt again.disk (hindered.pathOf name) name i.entries).1 = .ok () := by
    intro name i hfind _
    have hmem : (name, i) ∈ [("a", (⟨[(1, .number 1)], true⟩ : Index)),
        ("b", ⟨[(2, .number 2)], true⟩), ("c", ⟨[(3, .number 3)], true⟩), ("d", ⟨[], false⟩)] :=
      Keyed.mem_of_find? hfind
    simp only [List.mem_cons, List.not_mem_nil, or_false, Prod.mk.injEq] at hmem
    rcases hmem with ⟨rfl, rfl⟩ | ⟨rfl, rfl⟩ | ⟨rfl, rfl⟩ | ⟨rfl, rfl⟩ <;> decide +kernel
  obtain ⟨hflushed, -, hwritten, -⟩ := flushAll_attempts_every harises
  obtain ⟨hcount, heach⟩ := hwritten _ hremoved
  obtain ⟨-, -, -, hdone⟩ := flushAll_attempts_every hagain
  have hfailed {fault : Fault} : some fault ≠ none := nofun
  refine ⟨rfl, (hflushed "a" _ ha).written rfl hgoes, ((hflushed "b" _ hb).failed _ hstaging).1,
    ((hflushed "c" _ hc).failed _ hrename).2, (hflushed "d" _ hd).clean rfl, ?_, ?_, ?_, ?_⟩
  · exact hcount
  · exact (heach "b" _ hb).1 (hstaging ▸ hfailed)
  · exact (heach "a" _ ha).2 hgoes
  · have htwo : again.flushAll.1 = .ok 2 := hcount
    rw [hdone 2 htwo]

end Colloquy.Store
