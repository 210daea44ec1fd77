import Colloquy.Engine
import Colloquy.Proofs.Store

/-!
Reading changes the indexes only where they take over from the source, so every evaluation has the
outcome it has against the two together.
-/

namespace Colloquy

/-- The outcome of a reading when every attribute has a known answer. -/
def Reading.outcome {α : Type} (answers : UInt64 → String → Except Error Value) :
    Reading α → Except Error α
  | .done result => result.mapError .mismatch
  | .read message name next =>
    match answers message name with
    | .error e => .error e
    | .ok value => outcome answers (next value)

/-- Everything that a reading may ask for, by message and name. -/
def Reading.Asks {α : Type} (asked : UInt64 → String → Prop) : Reading α → Prop
  | .done _ => True
  | .read message name next => asked message name ∧ ∀ value, Asks asked (next value)

namespace Store

/-- What is known about an attribute: the entry of its index, or else the answer of the source. -/
def view (s : Store) (source : Source) (message : UInt64) (name : String) : Except Error Value :=
  match (s.get? name message).1 with
  | .error e => .error e
  | .ok (some value) => .ok value
  | .ok none => (source.attr? message name).map fun value => value.getD .absent

theorem index_frame (s : Store) (name : String) :
    (s.index name).2.disk = s.disk ∧ (s.index name).2.directory = s.directory := by
  rcases index_cases s name with ⟨e, hc⟩ | ⟨-, ⟨i, -, hc⟩ | ⟨i, -, -, hc⟩⟩ <;> rw [hc] <;>
    exact ⟨rfl, rfl⟩

theorem index_insert_self (s : Store) {name : String} (hname : Index.isName name = true)
    (i : Index) :
    ({ s with indexes := Keyed.insert name i s.indexes }.index name).1 = .ok i := by
  rw [index, if_pos hname, Keyed.find?_insert_self]

theorem index_insert_of_ne (s : Store) {name other : String} (hne : other ≠ name) (i : Index) :
    ({ s with indexes := Keyed.insert name i s.indexes }.index other).1 = (s.index other).1 := by
  have hsame := Keyed.find?_insert_of_ne hne i s.indexes
  by_cases hother : Index.isName other = true
  · cases hfind : Keyed.find? other s.indexes with
    | some j =>
      rw [hfind] at hsame
      rw [index, index, if_pos hother, if_pos hother, hsame, hfind]
    | none =>
      rw [hfind] at hsame
      rw [index_of_unloaded hother hfind, index_of_unloaded hother hsame]
      rfl
  · rw [index, index, if_neg hother, if_neg hother]

/-- Asking for one index changes none. -/
theorem index_index (s : Store) (name other : String) :
    ((s.index name).2.index other).1 = (s.index other).1 := by
  rcases index_cases s name with ⟨e, hc⟩ | ⟨hname, ⟨i, -, hc⟩ | ⟨i, -, -, hc⟩⟩
  · rw [hc]
  · rw [hc]
  · -- loading an index puts it where it will be found, with what was read
    by_cases hother : other = name
    · subst hother
      rw [hc]
      exact index_insert_self s hname i
    · rw [hc]
      exact index_insert_of_ne s hother i

theorem get?_index (s : Store) (name other : String) (message : UInt64) :
    ((s.index name).2.get? other message).1 = (s.get? other message).1 := by
  rw [get?_eq, get?_eq, index_index]

theorem put_eq (s : Store) (name : String) (message : UInt64) (value : Value) :
    s.put name message value =
      match (s.index name).1 with
      | .error e => (.error e, (s.index name).2)
      | .ok i => (.ok (), { (s.index name).2 with
          indexes := Keyed.insert name (i.put message value) (s.index name).2.indexes }) := by
  rw [put_def]
  rcases s.index name with ⟨e | i, s'⟩ <;> rfl

theorem isName_of_index {s : Store} {name : String} {i : Index} (h : (s.index name).1 = .ok i) :
    Index.isName name = true := by
  rcases index_cases s name with ⟨e, hc⟩ | ⟨hname, -⟩
  · rw [hc] at h
    cases h
  · exact hname

/-- A value that was put is found, and nothing else is found in another place than before. -/
theorem get?_put {s : Store} {name : String} {message : UInt64} {value : Value}
    (h : (s.put name message value).1 = .ok ()) (other : String) (m : UInt64) :
    ((s.put name message value).2.get? other m).1 =
      if other = name ∧ m = message then .ok (some value) else (s.get? other m).1 := by
  rw [put_eq] at h ⊢
  cases hindex : (s.index name).1 with
  | error e =>
    rw [hindex] at h
    cases h
  | ok i =>
    have hname := isName_of_index hindex
    simp only
    rw [get?_eq, get?_eq]
    by_cases hother : other = name
    · subst hother
      rw [index_insert_self _ hname]
      by_cases hm : m = message
      · subst hm
        rw [if_pos ⟨rfl, rfl⟩]
        exact congrArg Except.ok (Keyed.find?_insert_self m value i.entries)
      · rw [if_neg fun h => hm h.2, hindex]
        exact congrArg Except.ok (Keyed.find?_insert_of_ne hm value i.entries)
    · rw [if_neg fun h => hother h.1, index_insert_of_ne _ hother, index_index]

theorem get?_put_of_ne (s : Store) {name other : String} (hne : other ≠ name)
    (message m : UInt64) (value : Value) :
    ((s.put name message value).2.get? other m).1 = (s.get? other m).1 := by
  rw [put_eq]
  cases (s.index name).1 with
  | error e => exact get?_index s name other m
  | ok i =>
    simp only
    rw [get?_eq, get?_eq, index_insert_of_ne _ hne, index_index]

/-- Where an index can be read, values can be put into it. -/
theorem put_ok {s : Store} {name : String} {message : UInt64} {entry : Option Value}
    (h : (s.get? name message).1 = .ok entry) (m : UInt64) (value : Value) :
    (s.put name m value).1 = .ok () := by
  rw [get?_eq] at h
  rw [put_eq]
  cases hindex : (s.index name).1 with
  | error e =>
    rw [hindex] at h
    cases h
  | ok i => rfl

theorem put_frame (s : Store) (name : String) (message : UInt64) (value : Value) :
    (s.put name message value).2.disk = s.disk ∧
      (s.put name message value).2.directory = s.directory := by
  rw [put_eq]
  cases (s.index name).1 with
  | error e => exact index_frame s name
  | ok i => exact index_frame s name

/-- What cannot be answered has an index that fails, or the source does not answer. -/
theorem view_eq_error {s : Store} {source : Source} {message : UInt64} {name : String} {e : Error}
    (h : s.view source message name = .error e) :
    (s.index name).1 = .error e ∨ source.attr? message name = .error e := by
  rw [view, get?_eq] at h
  cases hindex : (s.index name).1 with
  | error cause =>
    rw [hindex] at h
    exact .inl (congrArg Except.error (Except.error.inj h))
  | ok i =>
    rw [hindex] at h
    cases hentry : i.get? message with
    | some value => simp only [Except.map, hentry, reduceCtorEq] at h
    | none =>
      simp only [Except.map, hentry] at h
      cases hanswer : source.attr? message name with
      | error cause =>
        rw [hanswer] at h
        exact .inr (congrArg Except.error (Except.error.inj h))
      | ok answer =>
        rw [hanswer] at h
        cases h

/-- The second store has the entries of the first and, where it was asked for, further ones that the
source has answered. -/
structure Warmed (source : Source) (asked : UInt64 → String → Prop) (before s : Store) : Prop where
  disk : s.disk = before.disk
  directory : s.directory = before.directory
  entries : ∀ name message, (s.get? name message).1 = (before.get? name message).1 ∨
    (before.get? name message).1 = .ok none ∧ asked message name ∧
      ∃ value, source.attr? message name = .ok (some value) ∧
        (s.get? name message).1 = .ok (some value)

section Warm
variable {source : Source} {asked : UInt64 → String → Prop}

theorem warmed_refl (s : Store) : Warmed source asked s s := ⟨rfl, rfl, fun _ _ => .inl rfl⟩

theorem warmed_trans {s₁ s₂ s₃ : Store} (h₁ : Warmed source asked s₁ s₂)
    (h₂ : Warmed source asked s₂ s₃) : Warmed source asked s₁ s₃ := by
  refine ⟨h₂.disk.trans h₁.disk, h₂.directory.trans h₁.directory, fun name message => ?_⟩
  rcases h₂.entries name message with hsame | ⟨hnone, hname, value, hanswer, hvalue⟩
  · rw [hsame]
    exact h₁.entries name message
  · -- an entry is added once: the second run finds what the first has added
    rcases h₁.entries name message with hold | ⟨-, -, earlier, -, hearlier⟩
    · exact .inr ⟨hold ▸ hnone, hname, value, hanswer, hvalue⟩
    · rw [hearlier] at hnone
      cases hnone

theorem warmed_index (s : Store) (name : String) : Warmed source asked s (s.index name).2 :=
  ⟨(index_frame s name).1, (index_frame s name).2,
    fun other message => .inl (get?_index s name other message)⟩

/-- Entries that the source stands behind do not change what is known. -/
theorem view_of_warmed {before s : Store} (h : Warmed source asked before s) :
    s.view source = before.view source := by
  funext message name
  unfold view
  rcases h.entries name message with hsame | ⟨hnone, -, value, hanswer, hvalue⟩
  · rw [hsame]
  · rw [hvalue, hnone, hanswer]
    rfl

/-- One attribute that is read. -/
theorem attr_warmed (s : Store) {message : UInt64} {name : String} (hasked : asked message name) :
    (s.attr source message name).1 = s.view source message name ∧
      Warmed source asked s (s.attr source message name).2 := by
  have hindex : Warmed source asked s (s.index name).2 := warmed_index s name
  have hget := get?_eq s name message
  unfold attr view
  rw [hget]
  cases hfound : (s.index name).1.map fun i => i.get? message with
  | error e => exact ⟨rfl, hindex⟩
  | ok entry =>
    cases entry with
    | some value => exact ⟨rfl, hindex⟩
    | none =>
      simp only
      cases hanswer : source.attr? message name with
      | error e => exact ⟨rfl, hindex⟩
      | ok answer =>
        cases answer with
        | none => exact ⟨rfl, hindex⟩
        | some value =>
          simp only
          -- the only branch that writes: no entry, and an answer of the source
          have hmissing : ((s.index name).2.get? name message).1 = .ok none := by
            rw [get?_index, get?_eq, hfound]
          have hput := put_ok hmissing message value
          have hframe := put_frame (s.index name).2 name message value
          have hentry := get?_put hput
          rcases hafter : (s.index name).2.put name message value with ⟨result, s'⟩
          rw [hafter] at hput hframe hentry
          simp only at hput hframe hentry
          rw [hput]
          refine ⟨rfl, warmed_trans hindex ⟨hframe.1, hframe.2, fun other m => ?_⟩⟩
          rw [hentry]
          by_cases hplace : other = name ∧ m = message
          · obtain ⟨rfl, rfl⟩ := hplace
            exact .inr ⟨hmissing, hasked, value, hanswer, if_pos ⟨rfl, rfl⟩⟩
          · exact .inl (if_neg hplace)

/-- A reading has the outcome that what is known gives it, and adds no entry that it does
not ask for. -/
theorem run_warmed {α : Type} (s : Store) {reading : Reading α} (hasks : reading.Asks asked) :
    (s.run source reading).1 = reading.outcome (s.view source) ∧
      Warmed source asked s (s.run source reading).2 := by
  induction reading generalizing s with
  | done result => exact ⟨rfl, warmed_refl s⟩
  | read message name next ih =>
    obtain ⟨hasked, hnext⟩ := hasks
    have hattr : (s.attr source message name).1 = s.view source message name ∧
        Warmed source asked s (s.attr source message name).2 := attr_warmed s hasked
    obtain ⟨hvalue, hwarmed⟩ := hattr
    rw [run, Reading.outcome, ← hvalue]
    rcases hattr : s.attr source message name with ⟨e | value, s'⟩
    · rw [hattr] at hwarmed
      exact ⟨rfl, hwarmed⟩
    · rw [hattr] at hwarmed
      obtain ⟨houtcome, hrest⟩ := ih value s' (hnext value)
      -- the rest runs on a warmer store, where the same is known
      rw [view_of_warmed hwarmed] at houtcome
      exact ⟨houtcome, warmed_trans hwarmed hrest⟩

end Warm

theorem sound_attr {s : Store} {place : Path} (h : Sound s place) (source : Source)
    (message : UInt64) (name : String) : Sound (s.attr source message name).2 place := by
  have hindex := sound_index h name
  have hput := fun value => sound_put hindex name message value
  unfold attr
  rw [get?_eq]
  cases (s.index name).1.map fun i => i.get? message with
  | error e => exact hindex
  | ok entry =>
    cases entry with
    | some value => exact hindex
    | none =>
      simp only
      cases source.attr? message name with
      | error e => exact hindex
      | ok answer =>
        cases answer with
        | none => exact hindex
        | some value =>
          have hsound := hput value
          simp only
          rcases hafter : (s.index name).2.put name message value with ⟨e | _, s'⟩
          · rw [hafter] at hsound
            exact hsound
          · rw [hafter] at hsound
            exact hsound

theorem sound_run {α : Type} {s : Store} {place : Path} (h : Sound s place) (source : Source)
    (reading : Reading α) : Sound (s.run source reading).2 place := by
  induction reading generalizing s with
  | done result => exact h
  | read message name next ih =>
    have hattr := sound_attr h source message name
    rw [run]
    rcases hafter : s.attr source message name with ⟨e | value, s'⟩
    · rw [hafter] at hattr
      exact hattr
    · rw [hafter] at hattr
      exact ih value hattr

end Store

end Colloquy
