import Colloquy.Proofs.Store.History

/-!
The states that a store can be in, when anything may be asked of it and its disk may become any
other between two requests.
-/

namespace Colloquy.Store
open Colloquy.Disk

/-- The stores that are come to from opening one, whatever is asked of them and whatever becomes of
their disk in between. -/
inductive Arises : Store → Prop where
  | opened {d : Disk} {directory : String} {s : Store} (h : (openAt d directory).1 = .ok s) :
      Arises s
  | asked {s : Store} (h : Arises s) (r : Request) : Arises (r.apply s)
  | disturbed {s : Store} (h : Arises s) (d : Disk) : Arises { s with disk := d }

/-- A store with its indexes in order and a directory that can be walked to on some disk. -/
structure WellFormed (s : Store) : Prop where
  walkable : pathFault? (Path.ofString s.directory) = none
  ordered : Keyed.Sorted s.indexes
  named : ∀ name i, Keyed.find? name s.indexes = some i → Index.isName name = true

variable {s : Store} {name : String}

theorem wellFormed_disk (h : WellFormed s) (d : Disk) : WellFormed { s with disk := d } :=
  ⟨h.walkable, h.ordered, h.named⟩

theorem wellFormed_insert (h : WellFormed s) (hname : Index.isName name = true) (i : Index) :
    WellFormed { s with indexes := Keyed.insert name i s.indexes } := by
  refine ⟨h.walkable, Keyed.sorted_insert h.ordered, ?_⟩
  intro other j hfind
  by_cases hother : other = name
  · rw [hother]
    exact hname
  · rw [Keyed.find?_insert_of_ne hother] at hfind
    exact h.named other j hfind

theorem wellFormed_index (h : WellFormed s) (name : String) : WellFormed (s.index name).2 := by
  rcases index_cases s name with ⟨e, hc⟩ | ⟨hname, ⟨i, -, hc⟩ | ⟨i, -, -, hc⟩⟩
  · rw [hc]
    exact h
  · rw [hc]
    exact h
  · rw [hc]
    exact wellFormed_insert h hname i

theorem wellFormed_put (h : WellFormed s) (name : String) (message : UInt64) (value : Value) :
    WellFormed (s.put name message value).2 := by
  have hindex := wellFormed_index h name
  rw [put_def]
  split
  · rename_i hc
    rw [hc] at hindex
    exact hindex
  · rename_i i s' hc
    rw [hc] at hindex
    exact wellFormed_insert hindex (find?_of_index hc).1 (i.put message value)

theorem wellFormed_flushLoaded (h : WellFormed s) (hname : Index.isName name = true) (i : Index) :
    WellFormed (s.flushLoaded name i).2 := by
  rcases flushLoaded_outcome s name i with
    ⟨-, hc⟩ | ⟨-, ⟨fault, d, -, hc⟩ | ⟨d, -, hc⟩⟩
  · rw [hc]
    exact h
  · rw [hc]
    exact wellFormed_disk h d
  · rw [hc]
    exact wellFormed_insert (wellFormed_disk h d) hname _

theorem wellFormed_flush (h : WellFormed s) (name : String) : WellFormed (s.flush name).2 := by
  have hindex := wellFormed_index h name
  rw [flush_def]
  split
  · rename_i hc
    rw [hc] at hindex
    exact hindex
  · rename_i i s' hc
    rw [hc] at hindex
    exact wellFormed_flushLoaded hindex (find?_of_index hc).1 i

theorem wellFormed_flushEach (h : WellFormed s) {indexes : List (String × Index)}
    (hnames : ∀ e ∈ indexes, Index.isName e.1 = true) : WellFormed (s.flushEach indexes).2 := by
  induction indexes generalizing s with
  | nil => exact h
  | cons head rest ih =>
    have hfirst := wellFormed_flushLoaded h (hnames head List.mem_cons_self) head.2
    rw [flushEach_cons]
    exact ih hfirst fun e he => hnames e (List.mem_cons_of_mem _ he)

theorem isName_of_mem (h : WellFormed s) : ∀ e ∈ s.indexes, Index.isName e.1 = true := by
  intro e he
  exact h.named e.1 e.2 (Keyed.find?_of_mem h.ordered he)

theorem wellFormed_request (h : WellFormed s) (r : Request) : WellFormed (r.apply s) := by
  cases r with
  | get name message =>
    change WellFormed (s.get? name message).2
    rw [get?_eq]
    exact wellFormed_index h name
  | operation asked =>
    cases asked with
    | index name => exact wellFormed_index h name
    | put name message value => exact wellFormed_put h name message value
    | flush name => exact wellFormed_flush h name
    | flushAll => exact wellFormed_flushEach h (isName_of_mem h)

theorem wellFormed_of_arises (h : Arises s) : WellFormed s := by
  induction h with
  | opened hopen =>
    obtain ⟨-, -, place, hsound⟩ := sound_openAt hopen
    exact ⟨hsound.walkable, hsound.ordered, hsound.named⟩
  | asked _ r ih => exact wellFormed_request ih r
  | disturbed _ d ih => exact wellFormed_disk ih d

theorem arises_after (h : Arises s) (operations : List Operation) : Arises (s.after operations) := by
  induction operations generalizing s with
  | nil => exact h
  | cons operation rest ih => exact ih (h.asked (.operation operation))

end Colloquy.Store
