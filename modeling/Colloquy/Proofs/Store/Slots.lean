import Colloquy.Proofs.Cabinet
import Colloquy.Proofs.Store.Contents
import Colloquy.Proofs.Store.States

/-!
A slot is made for a name when its index is asked for, and stays empty if the index cannot be
loaded. Nothing tells a keeper with an empty slot from one without.
-/

namespace Colloquy
open Cabinet

/-- A store as it is kept: the slots that were made so far, by name. -/
structure Keeper where
  disk : Disk
  directory : String
  slots : List (String × Option Index)
  ordered : Keyed.Sorted slots

namespace Keeper

def pathOf (k : Keeper) (name : String) : Path :=
  Path.ofString k.directory ++ [Index.fileName name]

/-- The index in the slot of a name. -/
def slot? (k : Keeper) (name : String) : Option Index := (Keyed.find? name k.slots).join

/-- Makes an empty slot for a name that has none. -/
def reserve (k : Keeper) (name : String) : Keeper :=
  match Keyed.find? name k.slots with
  | some _ => k
  | none => { k with
      slots := Keyed.insert name none k.slots
      ordered := Keyed.sorted_insert k.ordered }

/-- Puts an index into the slot of a name. -/
def fill (k : Keeper) (name : String) (i : Index) : Keeper :=
  { k with
    slots := Keyed.insert name (some i) k.slots
    ordered := Keyed.sorted_insert k.ordered }

/-- The index of a name, loaded into its slot if the slot is empty. -/
def indexFor (k : Keeper) (name : String) : Except Error Index × Keeper :=
  if Index.isName name then
    let k := k.reserve name
    match k.slot? name with
    | some i => (.ok i, k)
    | none =>
      match Index.load k.disk (k.pathOf name) name with
      | .error e => (.error e, k)
      | .ok i => (.ok i, k.fill name i)
  else (.error (.invalidName name), k)

/-- The indexes that are in slots, in the order of their names. -/
def materialized (k : Keeper) : List (String × Index) :=
  k.slots.filterMap fun slot => slot.2.map fun i => (slot.1, i)

instance : Cabinet Keeper where
  disk := disk
  withDisk k disk := { k with disk }
  pathOf := pathOf
  index := indexFor
  keep := fill
  loaded := materialized

/-- The store of the indexes that are in slots. -/
def store (k : Keeper) : Store :=
  { disk := k.disk, directory := k.directory, indexes := k.materialized }

/-! ## Empty slots cannot be seen -/

theorem sorted_materialized (k : Keeper) : Keyed.Sorted k.materialized := by
  refine List.Pairwise.filterMap _ ?_ k.ordered
  intro a b hlt x hx y hy
  obtain ⟨i, -, rfl⟩ := Option.map_eq_some_iff.1 hx
  obtain ⟨j, -, rfl⟩ := Option.map_eq_some_iff.1 hy
  exact hlt

theorem find?_materialized (k : Keeper) (name : String) :
    Keyed.find? name k.materialized = k.slot? name := by
  cases hslot : k.slot? name with
  | some i =>
    have hfind : Keyed.find? name k.slots = some (some i) := by
      rwa [slot?, Option.join_eq_some_iff] at hslot
    have hmem : (name, i) ∈ k.materialized := by
      refine List.mem_filterMap.2 ⟨(name, some i), Keyed.mem_of_find? hfind, rfl⟩
    exact Keyed.find?_of_mem k.sorted_materialized hmem
  | none =>
    cases hfind : Keyed.find? name k.materialized with
    | none => rfl
    | some i =>
      -- an index that is found is in the slot of its name
      obtain ⟨slot, hmem, hsome⟩ := List.mem_filterMap.1 (Keyed.mem_of_find? hfind)
      obtain ⟨j, hj, hpair⟩ := Option.map_eq_some_iff.1 hsome
      obtain ⟨rfl, rfl⟩ := Prod.mk.inj hpair
      have hthere : Keyed.find? slot.1 k.slots = some slot.2 := Keyed.find?_of_mem k.ordered hmem
      rw [slot?, hthere, hj] at hslot
      cases hslot

theorem slot?_reserve (k : Keeper) (name other : String) :
    (k.reserve name).slot? other = k.slot? other := by
  unfold reserve
  split
  · rfl
  · rename_i hnone
    by_cases hother : other = name
    · rw [hother, slot?, slot?, Keyed.find?_insert_self, hnone]
      rfl
    · rw [slot?, slot?, Keyed.find?_insert_of_ne hother]

theorem store_reserve (k : Keeper) (name : String) : (k.reserve name).store = k.store := by
  have hsame : (k.reserve name).materialized = k.materialized := by
    refine Keyed.eq_of_find? (sorted_materialized _) (sorted_materialized _) fun other => ?_
    rw [find?_materialized, find?_materialized, slot?_reserve]
  have hframe : (k.reserve name).disk = k.disk ∧ (k.reserve name).directory = k.directory := by
    unfold reserve
    split <;> exact ⟨rfl, rfl⟩
  rw [store, store, hsame, hframe.1, hframe.2]

theorem store_fill (k : Keeper) (name : String) (i : Index) :
    (k.fill name i).store =
      { k.store with indexes := Keyed.insert name i k.store.indexes } := by
  have hsame : (k.fill name i).materialized = Keyed.insert name i k.materialized := by
    refine Keyed.eq_of_find? (sorted_materialized _)
      (Keyed.sorted_insert (sorted_materialized _)) fun other => ?_
    rw [find?_materialized]
    by_cases hother : other = name
    · rw [hother, Keyed.find?_insert_self, slot?, fill, Keyed.find?_insert_self]
      rfl
    · rw [Keyed.find?_insert_of_ne hother, find?_materialized, slot?, slot?, fill,
        Keyed.find?_insert_of_ne hother]
  rw [store, hsame]
  rfl

theorem seen_indexFor (k : Keeper) (name : String) :
    seen store (k.indexFor name) = k.store.index name := by
  rw [indexFor, Store.index]
  split
  · -- a store that is asked has no slot to make, but finds what is in it
    have hslot : Keyed.find? name k.store.indexes = (k.reserve name).slot? name := by
      rw [slot?_reserve]
      exact find?_materialized k name
    have hload : Index.load (k.reserve name).disk ((k.reserve name).pathOf name) name =
        Index.load k.store.disk (k.store.pathOf name) name := by
      rw [← store_reserve k name]
      rfl
    rw [hslot]
    simp only
    cases (k.reserve name).slot? name with
    | some i => exact Prod.ext rfl (store_reserve k name)
    | none =>
      rw [hload]
      cases Index.load k.store.disk (k.store.pathOf name) name with
      | error e => exact Prod.ext rfl (store_reserve k name)
      | ok i =>
        refine Prod.ext rfl ?_
        change ((k.reserve name).fill name i).store = _
        rw [store_fill, store_reserve]
  · rfl

theorem shows_store : Shows store where
  disk _ := rfl
  withDisk _ _ := rfl
  pathOf _ _ := rfl
  index := seen_indexFor
  keep := store_fill
  loaded _ := rfl

/-! ## Asking again -/

/-- The keepers that are come to from one while all that is asked about a name fails. -/
inductive Attempts (name : String) (k : Keeper) : Keeper → Prop where
  | start : Attempts name k k
  | ask {l : Keeper} (h : Attempts name k l) (ask : Ask)
      (hfails : ask.target? = some name → (answer l ask).1.Failed) :
      Attempts name k (answer l ask).2

end Keeper

namespace Store
variable {s : Store} {name : String}

/-- What fails about an index that is not loaded fails for want of the index, which leaves the store
as it is. -/
theorem answer_failed (hfind : Keyed.find? name s.indexes = none) {ask : Ask}
    (htarget : ask.target? = some name) (hfails : (answer s ask).1.Failed) :
    (answer s ask).2 = s := by
  rcases index_cases s name with ⟨e, hc⟩ | ⟨-, ⟨i, hthere, -⟩ | ⟨i, -, hload, hc⟩⟩
  · cases ask with
    | index other =>
      obtain rfl : other = name := Option.some.inj htarget
      exact congrArg Prod.snd hc
    | get other message =>
      obtain rfl : other = name := Option.some.inj htarget
      change (s.get? other message).2 = s
      rw [get?_eq, hc]
    | put other message value =>
      obtain rfl : other = name := Option.some.inj htarget
      change (s.put other message value).2 = s
      rw [put_def, hc]
    | flush other =>
      obtain rfl : other = name := Option.some.inj htarget
      change (s.flush other).2 = s
      rw [flush_def, hc]
    | flushAll | statistics | replace => cases htarget
  · rw [hfind] at hthere
    cases hthere
  · -- with the index loaded nothing fails: it is clean, so not even a flush
    have hclean := (Index.load_ok hload).2.2
    cases ask with
    | index other =>
      obtain rfl : other = name := Option.some.inj htarget
      obtain ⟨e, he⟩ : ∃ e, (s.index other).1 = .error e := hfails
      rw [hc] at he
      cases he
    | get other message =>
      obtain rfl : other = name := Option.some.inj htarget
      obtain ⟨e, he⟩ : ∃ e, (s.get? other message).1 = .error e := hfails
      rw [get?_eq, hc] at he
      cases he
    | put other message value =>
      obtain rfl : other = name := Option.some.inj htarget
      obtain ⟨e, he⟩ : ∃ e, (s.put other message value).1 = .error e := hfails
      rw [put_def, hc] at he
      cases he
    | flush other =>
      obtain rfl : other = name := Option.some.inj htarget
      obtain ⟨e, he⟩ : ∃ e, (s.flush other).1 = .error e := hfails
      rw [flush_def, hc] at he
      simp only [flushLoaded_def, hclean] at he
      cases he
    | flushAll | statistics | replace => cases htarget

theorem find?_flushEach {indexes : List (String × Index)} (hnot : name ∉ indexes.map Prod.fst) :
    Keyed.find? name (s.flushEach indexes).2.indexes = Keyed.find? name s.indexes := by
  induction indexes generalizing s with
  | nil => rfl
  | cons head rest ih =>
    rw [List.map_cons, List.mem_cons, not_or] at hnot
    rw [flushEach_cons, ih hnot.2]
    exact find?_flushLoaded hnot.1

/-- An index is loaded by no request about others. -/
theorem find?_answer (hordered : Keyed.Sorted s.indexes)
    (hfind : Keyed.find? name s.indexes = none) {ask : Ask} (htarget : ask.target? ≠ some name) :
    Keyed.find? name (answer s ask).2.indexes = none := by
  have hne {other : String} (h : some other ≠ some name) : name ≠ other := by
    intro hsame
    exact h (congrArg some hsame.symm)
  have hindex {other : String} (hne : name ≠ other) :
      Keyed.find? name (s.index other).2.indexes = none := by
    rcases index_cases s other with ⟨e, hc⟩ | ⟨-, ⟨i, -, hc⟩ | ⟨i, -, -, hc⟩⟩
    · rw [hc]
      exact hfind
    · rw [hc]
      exact hfind
    · rw [hc]
      exact (Keyed.find?_insert_of_ne hne i s.indexes).trans hfind
  cases ask with
  | index other => exact hindex (hne htarget)
  | get other message =>
    change Keyed.find? name (s.get? other message).2.indexes = none
    rw [get?_eq]
    exact hindex (hne htarget)
  | put other message value =>
    have hafter := hindex (hne htarget)
    change Keyed.find? name (s.put other message value).2.indexes = none
    rw [put_eq]
    cases (s.index other).1 with
    | error e => exact hafter
    | ok i => exact (Keyed.find?_insert_of_ne (hne htarget) _ _).trans hafter
  | flush other =>
    have hafter := hindex (hne htarget)
    change Keyed.find? name (s.flush other).2.indexes = none
    rw [flush_def]
    rcases hresult : s.index other with ⟨e | i, s'⟩
    · rw [hresult] at hafter
      exact hafter
    · rw [hresult] at hafter
      exact (find?_flushLoaded (hne htarget)).trans hafter
  | flushAll => exact (find?_flushEach ((Keyed.find?_eq_none hordered).1 hfind)).trans hfind
  | statistics label => exact hfind
  | replace d => exact hfind

end Store

namespace Keeper

variable {k later : Keeper} {name : String}

/-- The slot of the name stays empty. -/
theorem slot?_of_attempts (h : Attempts name k later) (hslot : k.slot? name = none) :
    later.slot? name = none := by
  induction h with
  | start => exact hslot
  | @ask l _ asked hfails ih =>
    have hseen := seen_answer shows_store l asked
    have hstore : (answer l asked).2.store = (answer l.store asked).2 := congrArg Prod.snd hseen
    have hnone : Keyed.find? name l.store.indexes = none := (find?_materialized l name).trans ih
    rw [← find?_materialized]
    change Keyed.find? name (answer l asked).2.store.indexes = none
    rw [hstore]
    by_cases htarget : asked.target? = some name
    · have hfailed := hfails htarget
      rw [show (answer l asked).1 = (answer l.store asked).1 from congrArg Prod.fst hseen] at hfailed
      rw [Store.answer_failed hnone htarget hfailed]
      exact hnone
    · exact Store.find?_answer l.sorted_materialized hnone htarget

/-- An index whose load fails has an empty slot. -/
theorem slot?_of_failed {e : Error} (hname : Index.isName name = true)
    (hfail : (k.indexFor name).1 = .error e) : k.slot? name = none := by
  have hseen : (k.indexFor name).1 = (k.store.index name).1 :=
    congrArg Prod.fst (seen_indexFor k name)
  cases hslot : k.slot? name with
  | none => rfl
  | some i =>
    have hfind : Keyed.find? name k.store.indexes = some i :=
      (find?_materialized k name).trans hslot
    rw [hseen, Store.index, if_pos hname, hfind] at hfail
    cases hfail

/-- With an empty slot an index is that of the file that is there. -/
theorem indexFor_of_empty (hname : Index.isName name = true) (hslot : k.slot? name = none) :
    (k.indexFor name).1 = Index.load k.disk (k.pathOf name) name := by
  have hseen : (k.indexFor name).1 = (k.store.index name).1 :=
    congrArg Prod.fst (seen_indexFor k name)
  have hfind : Keyed.find? name k.store.indexes = none :=
    (find?_materialized k name).trans hslot
  rw [hseen, Store.index_of_unloaded hname hfind]
  rfl

/-- An index that cannot be had leaves no trace. Whatever is asked from then on, and whatever
becomes of the disk, the answers and the disk are what they would have been, and the answers are
those of a store that keeps no slots. After any number of such failures the index is that of the
file that is there by then, with the last value of each message, or empty if there is none. -/
theorem failed_load_leaves_no_trace {e : Error} (hfail : (k.indexFor name).1 = .error e) :
    let failed := (k.indexFor name).2
    failed.disk = k.disk ∧
    (∀ asks, (answers failed asks).1 = (answers k asks).1 ∧
      (answers failed asks).2.disk = (answers k asks).2.disk ∧
      (answers k asks).1 = (answers k.store asks).1) ∧
    (Index.isName name = true → ∀ later, Attempts name failed later →
      (later.disk.read (later.pathOf name) = .error .notFound →
        (later.indexFor name).1 = .ok ⟨[], false⟩) ∧
      ∀ content entries, later.disk.read (later.pathOf name) = .ok content →
        Index.decode name content.data = .ok entries →
        ∃ i, (later.indexFor name).1 = .ok i ∧ i.dirty = false ∧
          ∀ message, i.get? message = Keyed.last? message entries) := by
  intro failed
  have hseen := seen_indexFor k name
  -- the slot that was made is all that is new, and it cannot be seen
  have hstore : failed.store = k.store := by
    have herror : (k.store.index name).1 = .error e := by
      rw [← hseen]
      exact hfail
    have hafter : failed.store = (k.store.index name).2 := congrArg Prod.snd hseen
    rcases Store.index_cases k.store name with ⟨e', hc⟩ | ⟨-, ⟨i, -, hc⟩ | ⟨i, -, -, hc⟩⟩
    · rw [hafter, hc]
    · rw [hc] at herror
      cases herror
    · rw [hc] at herror
      cases herror
  refine ⟨congrArg Store.disk hstore, fun asks => ?_, fun hname later hattempts => ?_⟩
  · have hfailed := seen_answers shows_store failed asks
    rw [hstore, ← seen_answers shows_store] at hfailed
    obtain ⟨hanswers, hafter⟩ := Prod.mk.inj hfailed
    exact ⟨hanswers, congrArg Store.disk hafter,
      congrArg Prod.fst (seen_answers shows_store k asks)⟩
  · -- the slot is empty after this failure and all later ones, so the file decides
    have hslot : failed.slot? name = none := by
      have hempty := slot?_of_failed hname hfail
      rw [← find?_materialized] at hempty ⊢
      rw [show failed.materialized = k.materialized from congrArg Store.indexes hstore]
      exact hempty
    rw [indexFor_of_empty hname (slot?_of_attempts hattempts hslot)]
    refine ⟨fun hread => ?_, fun content entries hread hdecode => ?_⟩
    · rw [Index.load, Index.readAt, hread]
      rfl
    · refine ⟨⟨Keyed.insertAll entries [], false⟩, ?_, rfl, fun message => ?_⟩
      · rw [Index.load, Index.readAt, hread]
        simp only [hdecode]
        rfl
      · rw [Index.get?, Keyed.find?_insertAll]
        exact Option.or_none

theorem attempts_get {message : UInt64} {e : Error} (h : Attempts name k later)
    (hrefused : (get? later name message).1 = .error e) :
    Attempts name k (answer later (.get name message)).2 :=
  .ask h (.get name message) fun _ => ⟨e, hrefused⟩

/-- A keeper without slots over a directory with a file under the name "a". -/
def withFile (file : List UInt8) : Keeper :=
  { disk := { nodes := [(["idx"], .directory), (["idx", "a.idx"], .file (.bytes file))] }
    directory := "idx"
    slots := []
    ordered := List.Pairwise.nil }

/-- An empty file is refused twice, with other indexes used in between, before it is replaced or
removed. -/
theorem failed_load_leaves_no_trace_empty_file :
    let failed := ((withFile []).indexFor "a").2
    let whole := (withFile (Index.encode "a" [(7, .number 5)])).disk
    let again := (answer (answer failed (.put "b" 1 .absent)).2 (.get "a" 7)).2
    ((withFile []).indexFor "a").1 = .error (.corrupted "a" .missingHeader) ∧
      failed.slots = [("a", none)] ∧
      (answers failed [.put "b" 1 .absent, .flushAll, .statistics "idx"]).1 =
        (answers (withFile []) [.put "b" 1 .absent, .flushAll, .statistics "idx"]).1 ∧
      (∃ i, ({ again with disk := whole }.indexFor "a").1 = .ok i ∧ i.get? 7 = some (.number 5)) ∧
      ({ again with disk := Store.opened.disk }.indexFor "a").1 = .ok ⟨[], false⟩ := by
  intro failed whole again
  have hfail : ((withFile []).indexFor "a").1 = .error (.corrupted "a" .missingHeader) := by
    decide +kernel
  obtain ⟨-, hanswers, hretry⟩ := failed_load_leaves_no_trace hfail
  have hother : (Ask.put "b" 1 .absent).target? ≠ some "a" := by decide
  have hput : Attempts "a" failed (answer failed (.put "b" 1 .absent)).2 :=
    .ask .start (.put "b" 1 .absent) fun htarget => absurd htarget hother
  have hagain : Attempts "a" failed again := by
    have hrefused : (get? (answer failed (.put "b" 1 .absent)).2 "a" 7).1 =
        .error (.corrupted "a" .missingHeader) := by decide +kernel
    exact attempts_get hput hrefused
  have hreplaced (d : Disk) : Attempts "a" failed { again with disk := d } :=
    .ask hagain (.replace d) nofun
  have hname : Index.isName "a" = true := by decide
  obtain ⟨hanswered, -⟩ := hanswers [.put "b" 1 .absent, .flushAll, .statistics "idx"]
  have hslots : failed.slots = [("a", none)] := by decide +kernel
  have hpath : again.pathOf "a" = ["idx", "a.idx"] := by decide +kernel
  have hsame (l : Keeper) (d : Disk) : ({ l with disk := d } : Keeper).pathOf "a" = l.pathOf "a" :=
    rfl
  have hyields : ∃ i, ({ again with disk := whole }.indexFor "a").1 = .ok i ∧
      i.get? 7 = some (.number 5) := by
    obtain ⟨-, hwhole⟩ := hretry hname _ (hreplaced whole)
    rw [hsame, hpath] at hwhole
    have hread : whole.read ["idx", "a.idx"] =
        .ok (.bytes (Index.encode "a" [(7, .number 5)])) := rfl
    have hreadable : Index.Readable [(7, .number 5)] := by decide
    obtain ⟨i, hi, -, hget⟩ := hwhole _ _ hread (Index.decode_encode hreadable "a")
    have hsorted : Keyed.Sorted [((7 : UInt64), Value.number 5)] := List.pairwise_singleton _ _
    rw [Index.sortEntries_sorted hsorted] at hget
    exact ⟨i, hi, hget 7⟩
  have hempty : ({ again with disk := Store.opened.disk }.indexFor "a").1 = .ok ⟨[], false⟩ := by
    obtain ⟨hremoved, -⟩ := hretry hname _ (hreplaced Store.opened.disk)
    rw [hsame, hpath] at hremoved
    have hread : Store.opened.disk.read ["idx", "a.idx"] = .error .notFound := rfl
    exact hremoved hread
  exact ⟨hfail, hslots, hanswered, hyields, hempty⟩

end Keeper

end Colloquy
