import Colloquy.Proofs.Store

/-!
After a flush that reports no failure every index is in step with its file, so a store opened in the
same directory has the indexes as they were written.
-/

namespace Colloquy.Store

/-- What can be asked of a store. -/
inductive Operation where
  | index (name : String)
  | put (name : String) (message : UInt64) (value : Value)
  | flush (name : String)
  | flushAll

/-- The store after an operation, whether that succeeded or not. -/
def Operation.apply (s : Store) : Operation → Store
  | index name => (s.index name).2
  | put name message value => (s.put name message value).2
  | flush name => (s.flush name).2
  | flushAll => s.flushAll.2

def after (s : Store) (operations : List Operation) : Store :=
  operations.foldl Operation.apply s

variable {s : Store} {place : Path}

theorem index_directory (s : Store) (name : String) : (s.index name).2.directory = s.directory := by
  rcases index_cases s name with ⟨e, hc⟩ | ⟨-, ⟨i, -, hc⟩ | ⟨i, -, -, hc⟩⟩ <;> rw [hc]

theorem flushLoaded_directory (s : Store) (name : String) (i : Index) :
    (s.flushLoaded name i).2.directory = s.directory := by
  rcases flushLoaded_outcome s name i with
    ⟨-, hc⟩ | ⟨-, ⟨fault, d, -, hc⟩ | ⟨d, -, hc⟩⟩ <;> rw [hc]

theorem flushEach_directory (s : Store) (indexes : List (String × Index)) :
    (s.flushEach indexes).2.directory = s.directory := by
  induction indexes generalizing s with
  | nil => rfl
  | cons head rest ih => rw [flushEach_cons, ih, flushLoaded_directory]

theorem apply_directory (s : Store) (operation : Operation) :
    (operation.apply s).directory = s.directory := by
  cases operation with
  | index name => exact index_directory s name
  | put name message value =>
    have hindex := index_directory s name
    change (s.put name message value).2.directory = s.directory
    rw [put_def]
    split
    · rename_i hc
      rw [hc] at hindex
      exact hindex
    · rename_i hc
      rw [hc] at hindex
      exact hindex
  | flush name =>
    have hindex := index_directory s name
    change (s.flush name).2.directory = s.directory
    rw [flush_def]
    split
    · rename_i hc
      rw [hc] at hindex
      exact hindex
    · rename_i hc
      rw [hc] at hindex
      rw [flushLoaded_directory]
      exact hindex
  | flushAll => exact flushEach_directory s s.indexes

theorem sound_apply (h : Sound s place) (operation : Operation) :
    Sound (operation.apply s) place := by
  cases operation with
  | index name => exact sound_index h name
  | put name message value => exact sound_put h name message value
  | flush name => exact sound_flush h name
  | flushAll => exact sound_flushAll h

theorem sound_after (h : Sound s place) (operations : List Operation) :
    Sound (s.after operations) place ∧ (s.after operations).directory = s.directory := by
  induction operations generalizing s with
  | nil => exact ⟨h, rfl⟩
  | cons operation rest ih =>
    obtain ⟨hsound, hdirectory⟩ := ih (sound_apply h operation)
    exact ⟨hsound, hdirectory.trans (apply_directory s operation)⟩

/-- The list has every loaded index with unflushed changes. -/
def Covers (s : Store) (indexes : List (String × Index)) : Prop :=
  ∀ name i, Keyed.find? name s.indexes = some i → i.dirty = true → (name, i) ∈ indexes

theorem flushLoaded_ok {name : String} {i : Index} {written : Bool}
    (h : (s.flushLoaded name i).1 = .ok written) :
    i.dirty = false ∧ (s.flushLoaded name i).2 = s ∨
      i.dirty = true ∧
        (s.flushLoaded name i).2.indexes =
          Keyed.insert name { i with dirty := false } s.indexes := by
  rcases flushLoaded_outcome s name i with
    ⟨hclean, hc⟩ | ⟨hdirty, ⟨fault, d, -, hc⟩ | ⟨d, -, hc⟩⟩
  · exact .inl ⟨hclean, congrArg Prod.snd hc⟩
  · rw [hc] at h
    cases h
  · rw [hc]
    exact .inr ⟨hdirty, rfl⟩

theorem countWritten_cons {outcome : Except Error Bool} {rest : List (Except Error Bool)}
    {n : Nat} (h : Cabinet.countWritten (outcome :: rest) = .ok n) :
    (∃ written, outcome = .ok written) ∧ ∃ m, Cabinet.countWritten rest = .ok m := by
  cases outcome with
  | error e => cases h
  | ok written =>
    rw [Cabinet.countWritten] at h
    cases hrest : Cabinet.countWritten rest with
    | error e =>
      rw [hrest] at h
      cases h
    | ok m => exact ⟨⟨written, rfl⟩, m, rfl⟩

/-- When no flush fails, no index keeps unflushed changes. -/
theorem clean_of_flushEach {indexes : List (String × Index)} {written : Nat}
    (hcovers : Covers s indexes) (h : Cabinet.countWritten (s.flushEach indexes).1 = .ok written) :
    ∀ name i, Keyed.find? name (s.flushEach indexes).2.indexes = some i → i.dirty = false := by
  -- the invariant is that the indexes still to be flushed cover the unflushed ones
  induction indexes generalizing s written with
  | nil =>
    intro name i hfind
    cases hdirty : i.dirty with
    | false => rfl
    | true => cases hcovers name i hfind hdirty
  | cons head rest ih =>
    obtain ⟨name, i⟩ := head
    rw [flushEach_cons] at h ⊢
    obtain ⟨⟨flushed, hflushed⟩, m, hm⟩ := countWritten_cons h
    refine ih (fun other j hfind hdirty => ?_) hm
    rcases flushLoaded_ok hflushed with ⟨hclean, hsame⟩ | ⟨-, hindexes⟩
    · rw [hsame] at hfind
      rcases List.mem_cons.1 (hcovers other j hfind hdirty) with he | he
      · rw [(Prod.mk.inj he).2, hclean] at hdirty
        cases hdirty
      · exact he
    · rw [hindexes] at hfind
      by_cases hother : other = name
      · rw [hother, Keyed.find?_insert_self] at hfind
        rw [← Option.some.inj hfind] at hdirty
        cases hdirty
      · rw [Keyed.find?_insert_of_ne hother] at hfind
        rcases List.mem_cons.1 (hcovers other j hfind hdirty) with he | he
        · exact absurd (Prod.mk.inj he).1 hother
        · exact he

theorem clean_of_flushAll {written : Nat} (h : s.flushAll.1 = .ok written) :
    ∀ name i, Keyed.find? name s.flushAll.2.indexes = some i → i.dirty = false :=
  clean_of_flushEach (fun _ _ hfind _ => Keyed.mem_of_find? hfind) h

theorem sorted_of_index (h : Sound s place) {name : String} {i : Index}
    (hi : (s.index name).1 = .ok i) : Keyed.Sorted i.entries := by
  have hindex := sound_index h name
  rcases hresult : s.index name with ⟨outcome, s'⟩
  rw [hresult] at hi hindex
  obtain rfl : outcome = .ok i := hi
  exact hindex.sorted name i (find?_of_index hresult).2

/-- An index of a store in step with its files, beside the one of a store with nothing loaded. -/
theorem index_unloaded (h : Sound s place)
    (hclean : ∀ name i, Keyed.find? name s.indexes = some i → i.dirty = false) (name : String) :
    let fresh : Store := { disk := s.disk, directory := s.directory }
    (∀ e, (s.index name).1 = .error e → (fresh.index name).1 = .error e) ∧
      ∀ i, (s.index name).1 = .ok i →
        (Index.Readable i.entries → (fresh.index name).1 = .ok i.asWritten) ∧
        (¬ Index.Readable i.entries →
          ∃ cause, (fresh.index name).1 = .error (.corrupted name cause)) := by
  intro fresh
  have hfresh (hname : Index.isName name = true) :
      (fresh.index name).1 = Index.load s.disk (s.pathOf name) name :=
    index_of_unloaded hname rfl
  by_cases hname : Index.isName name = true
  · rw [hfresh hname]
    cases hfind : Keyed.find? name s.indexes with
    | none =>
      rw [index_of_unloaded hname hfind]
      -- both read the same file, and what has been read is readable
      refine ⟨fun _ he => he, fun i hi => ⟨fun _ => ?_, fun hun => ?_⟩⟩
      · rw [Index.asWritten_of_load hi]
        exact hi
      · exact absurd (Index.load_ok hi).2.1 hun
    | some i =>
      have hloaded : (s.index name).1 = .ok i := by
        rw [index, if_pos hname, hfind]
      have hholds := h.inStep name i hfind (hclean name i hfind)
      rw [hloaded]
      refine ⟨fun e he => ?_, fun j hj => ?_⟩
      · cases he
      · obtain rfl := Except.ok.inj hj
        exact hholds
  · have hrefused (t : Store) : (t.index name).1 = .error (.invalidName name) := by
      rw [index, if_neg hname]
    rw [hrefused, hrefused]
    refine ⟨fun _ he => he, fun i hi => ?_⟩
    cases hi

/-- After any run that ends with a flush of all indexes without a failure, a store opened in the
same directory has an index under every name, with the entries as they were written, if the values
are nested within the limit of the files. They are the same entries if and only if besides no value
has a time that is written as another one. Where a value is nested deeper, the file that was written
is refused. -/
theorem reopened_iff_readable {d : Disk} {directory : String}
    (hopen : (openAt d directory).1 = .ok s) (operations : List Operation) {written : Nat}
    (hflush : (s.after operations).flushAll.1 = .ok written) :
    let flushed := (s.after operations).flushAll.2
    ∃ fresh, (openAt flushed.disk directory).1 = .ok fresh ∧ ∀ name,
      (∀ e, (flushed.index name).1 = .error e → (fresh.index name).1 = .error e) ∧
      ∀ i, (flushed.index name).1 = .ok i →
        ((∃ j, (fresh.index name).1 = .ok j ∧ j.size = i.size ∧ ∀ m, j.get? m = i.get? m) ↔
          Index.Readable i.entries ∧ ∀ e ∈ i.entries, e.2.Regular) ∧
        (Index.Readable i.entries → ∃ j, (fresh.index name).1 = .ok j ∧ j.size = i.size ∧
          ∀ m, j.get? m = (i.get? m).map Value.asWritten) ∧
        (¬ Index.Readable i.entries →
          ∃ cause, (fresh.index name).1 = .error (.corrupted name cause)) := by
  intro flushed
  obtain ⟨hdirectory, -, place, hsound⟩ := sound_openAt hopen
  obtain ⟨hafter, hsame⟩ := sound_after hsound operations
  have hflushed : Sound flushed place := sound_flushAll hafter
  have hplace : flushed.directory = directory := by
    rw [← hdirectory, ← hsame]
    exact flushEach_directory _ _
  have hagain := openAt_again hflushed
  rw [hplace] at hagain
  refine ⟨_, congrArg Prod.fst hagain, fun name => ?_⟩
  have hindex := index_unloaded hflushed (clean_of_flushAll hflush) name
  rw [hplace] at hindex
  obtain ⟨hfails, hloads⟩ := hindex
  refine ⟨hfails, fun i hi => ?_⟩
  obtain ⟨hreadable, hunreadable⟩ := hloads i hi
  have htimes := Index.get?_asWritten_eq (sorted_of_index hflushed hi)
  refine ⟨⟨?_, ?_⟩, fun hread => ?_, hunreadable⟩
  · rintro ⟨j, hj, -, hget⟩
    have hread : Index.Readable i.entries := by
      by_contra hun
      obtain ⟨cause, hcause⟩ := hunreadable hun
      rw [hcause] at hj
      cases hj
    rw [hreadable hread] at hj
    obtain rfl := Except.ok.inj hj
    exact ⟨hread, htimes.1 hget⟩
  · rintro ⟨hread, hregular⟩
    exact ⟨_, hreadable hread, i.size_asWritten, htimes.2 hregular⟩
  · exact ⟨_, hreadable hread, i.size_asWritten, i.get?_asWritten⟩

/-- A store on an empty disk, just opened. -/
def opened : Store := { disk := { nodes := [(["idx"], .directory)] }, directory := "idx" }

theorem reopened_iff_readable_text :
    (openAt {} "idx").1 = .ok opened ∧
      (opened.after [.put "a" 1 (.text "x")]).flushAll.1 = .ok 1 ∧
      ∃ fresh,
        (openAt (opened.after [.put "a" 1 (.text "x")]).flushAll.2.disk "idx").1 = .ok fresh ∧
        ∃ j, (fresh.index "a").1 = .ok j ∧ j.size = 1 ∧ j.get? 1 = some (.text "x") := by
  have hopen : (openAt {} "idx").1 = .ok opened := rfl
  have hflush : (opened.after [.put "a" 1 (.text "x")]).flushAll.1 = .ok 1 := rfl
  obtain ⟨fresh, hfresh, hnames⟩ :=
    reopened_iff_readable hopen [.put "a" 1 (.text "x")] hflush
  obtain ⟨-, hloads⟩ := hnames "a"
  obtain ⟨⟨-, hread⟩, -⟩ := hloads ⟨[(1, .text "x")], false⟩ rfl
  obtain ⟨j, hj, hsize, hget⟩ := hread ⟨by decide, by decide⟩
  exact ⟨hopen, hflush, fresh, hfresh, j, hj, hsize, hget 1⟩

/-- A number inside so many lists. -/
def nested : Nat → Value
  | 0 => .number 1
  | n + 1 => .list [nested n]

theorem depth_nested (n : Nat) : (nested n).depth = n := by
  induction n with
  | zero => rfl
  | succ n ih =>
    rw [nested, Value.depth, Value.depth.depthItems, Value.depth.depthItems, ih, Nat.max_zero]

/-- Sixty-three nested lists are put and flushed without a complaint, and then refused. -/
theorem nested_refused :
    let flushed := (opened.after [.put "a" 1 (nested 63)]).flushAll
    (openAt {} "idx").1 = .ok opened ∧ flushed.1 = .ok 1 ∧
      (flushed.2.get? "a" 1).1 = .ok (some (nested 63)) ∧
      ∃ fresh, (openAt flushed.2.disk "idx").1 = .ok fresh ∧
        ∃ cause, (fresh.index "a").1 = .error (.corrupted "a" cause) := by
  intro flushed
  have hopen : (openAt {} "idx").1 = .ok opened := rfl
  have hflush : flushed.1 = .ok 1 := rfl
  obtain ⟨-, -, place, hsound⟩ := sound_openAt hopen
  obtain ⟨hafter, -⟩ := sound_after hsound [.put "a" 1 (nested 63)]
  have hflushed : Sound flushed.2 place := sound_flushAll hafter
  obtain ⟨-, hloads⟩ := index_unloaded hflushed (clean_of_flushAll hflush) "a"
  obtain ⟨-, hunreadable⟩ := hloads ⟨[(1, nested 63)], false⟩ rfl
  have hdeep : ¬ Index.Readable [(1, nested 63)] := by
    intro h
    have hdepth := h.2 (1, nested 63) (List.mem_singleton_self _)
    rw [depth_nested] at hdepth
    exact absurd hdepth (by decide)
  exact ⟨hopen, hflush, rfl, _, congrArg Prod.fst (openAt_again hflushed), hunreadable hdeep⟩

end Colloquy.Store
