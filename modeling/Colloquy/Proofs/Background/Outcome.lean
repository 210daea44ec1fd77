import Colloquy.Proofs.Background
import Colloquy.Proofs.Engine

/-!
What is left to do for a task comes to the outcome of its whole query on the store as it was at
first, unless the query is cancelled.
-/

namespace Colloquy

namespace Interface

section Known
variable (known : UInt64 → String → Except Error Value) (now : Instant)

/-- The outcome of a selection from the messages that are left, when nothing interrupts it. -/
def selection (tree : Predicate) (accepted left : List Message) : Except Error (List Message) :=
  tree.selectKnown known now Message.number (fun _ => false) 0 accepted left

/-- The outcome of a selection by the verdict on the candidate that is next. -/
def afterTrial (trial : Trial) : Except Error Bool → Except Error (List Message)
  | .error e => .error e
  | .ok true => selection known now trial.tree (trial.candidate :: trial.accepted) trial.rest
  | .ok false => selection known now trial.tree trial.accepted trial.rest

/-- The outcome of a whole query. -/
def wholeOutcome (r : Request) : Except Error (List Message) :=
  match Query.parse r.query with
  | .error failure => .error (.query failure)
  | .ok tree => selection known r.now tree [] r.candidates

/-- What is left to do comes to this outcome, when nothing interrupts it. -/
def comesTo (task : Task) : Except Error (List Message) :=
  match task.work with
  | .parse => wholeOutcome known task.request
  | .keep tree => selection known task.now tree [] task.candidates
  | .select tree accepted left => selection known task.now tree accepted left
  | .evaluate trial reading => afterTrial known task.now trial (reading.outcome known)
  | .ask trial held | .warm trial held _ =>
    afterTrial known task.now trial (held.reading.outcome known)
  | .leaving outcome | .sending outcome | .ended outcome => outcome

end Known

theorem selectKnown_seen {known : UInt64 → String → Except Error Value} {now : Instant}
    {tree : Predicate} (seen : Nat) (accepted left : List Message) :
    tree.selectKnown known now Message.number (fun _ => false) seen accepted left =
      selection known now tree accepted left := by
  -- no token is looked at, so it does not matter how many candidates were seen
  unfold selection
  generalize 0 = start
  induction left generalizing seen start accepted with
  | nil => rfl
  | cons candidate rest ih =>
    rw [Predicate.selectKnown, Predicate.selectKnown, if_neg Bool.false_ne_true,
      if_neg Bool.false_ne_true]
    simp only [ih (seen + 1) _ (start + 1)]

theorem selection_cons {known : UInt64 → String → Except Error Value} {now : Instant}
    (tree : Predicate) (accepted rest : List Message) (candidate : Message) :
    selection known now tree accepted (candidate :: rest) =
      afterTrial known now ⟨tree, accepted, candidate, rest⟩
        ((tree.truth ⟨candidate.number, .ofNat accepted.length, now⟩).outcome known) := by
  rw [selection, Predicate.selectKnown, if_neg Bool.false_ne_true]
  simp only [selectKnown_seen]
  rcases (tree.truth ⟨candidate.number, .ofNat accepted.length, now⟩).outcome known with e | _ | _
  · rfl
  · rfl
  · rfl

/-- What is shared has not changed in a way that shows: indexes have got answers of the source, and
the trees that are kept are those of their queries. -/
structure Warm (before : Store) (source : Source) (s : Shared) : Prop where
  warmed : Store.Warmed source (fun _ _ => True) before s.engine.store
  faithful : s.engine.cache.Faithful

/-- What a task holds on to is true of its query and of the source. -/
def Backed (before : Store) (source : Source) (task : Task) : Prop :=
  match task.work with
  | .keep tree => Query.parse task.query = .ok tree
  | .ask _ held => (before.get? held.name held.message).1 = .ok none
  | .warm _ held value => (before.get? held.name held.message).1 = .ok none ∧
      source.attr? held.message held.name = .ok (some value)
  | _ => True

/-- A step keeps what the task comes to, unless it is the one by which a cancelled task stops. -/
structure Goes (before : Store) (source : Source) (task : Task) (next : Work × Shared) :
    Prop where
  warm : Warm before source next.2
  backed : Backed before source { task with work := next.1 }
  outcome : comesTo (before.view source) { task with work := next.1 } =
      comesTo (before.view source) task ∨
    task.cancelled = true ∧
      comesTo (before.view source) { task with work := next.1 } = .error .cancelled

section Steps
variable {before : Store} {source : Source} {s : Shared} {task : Task}

/-- What no index holds now, none has held at first. -/
theorem missing_of_warm (hs : Warm before source s) {name : String} {message : UInt64}
    (h : (s.engine.store.get? name message).1 = .ok none) :
    (before.get? name message).1 = .ok none := by
  rcases hs.warmed.entries name message with hsame | ⟨hnone, -⟩
  · rw [← hsame, h]
  · exact hnone

theorem warm_index (hs : Warm before source s) (name : String) :
    Warm before source (s.withStore (s.engine.store.index name).2) :=
  ⟨Store.warmed_trans hs.warmed (Store.warmed_index s.engine.store name), hs.faithful⟩

theorem goes_parse (hs : Warm before source s) (hwork : task.work = .parse) :
    Goes before source task (s.step source task) := by
  have hcomes (known : UInt64 → String → Except Error Value) :
      comesTo known task = wholeOutcome known task.request := by
    rw [comesTo, hwork]
  rw [Shared.step, hwork]
  simp only
  cases hfind : s.engine.cache.find? task.query with
  | some parsed =>
    have htree := ParseCache.tree_of_find? hs.faithful hfind
    refine ⟨hs, trivial, .inl ?_⟩
    rw [hcomes, wholeOutcome, Task.request, htree]
    rfl
  | none =>
    simp only
    cases hparse : Query.parse task.query with
    | error failure =>
      refine ⟨hs, trivial, .inl ?_⟩
      rw [hcomes, wholeOutcome, Task.request, hparse]
      rfl
    | ok tree =>
      refine ⟨hs, hparse, .inl ?_⟩
      rw [hcomes, wholeOutcome, Task.request, hparse]
      rfl

theorem goes_keep (hs : Warm before source s) {tree : Predicate}
    (hwork : task.work = .keep tree) (hbacked : Backed before source task) :
    Goes before source task (s.step source task) := by
  rw [Backed, hwork] at hbacked
  rw [Shared.step, hwork]
  refine ⟨⟨hs.warmed, ParseCache.insert_faithful hs.faithful hbacked⟩, trivial, .inl ?_⟩
  rw [comesTo, comesTo, hwork]

theorem goes_select (hs : Warm before source s) {tree : Predicate}
    {accepted left : List Message} (hwork : task.work = .select tree accepted left) :
    Goes before source task (s.step source task) := by
  rw [Shared.step, hwork]
  cases left with
  | nil =>
    refine ⟨hs, trivial, .inl ?_⟩
    rw [comesTo, comesTo, hwork]
    rfl
  | cons candidate rest =>
    simp only
    split
    · rename_i hcancelled
      exact ⟨hs, trivial, .inr ⟨hcancelled, rfl⟩⟩
    · refine ⟨hs, trivial, .inl ?_⟩
      rw [comesTo, comesTo, hwork]
      exact (selection_cons tree accepted rest candidate).symm

theorem goes_evaluate (hs : Warm before source s) {trial : Trial}
    {reading : Reading Bool} (hwork : task.work = .evaluate trial reading) :
    Goes before source task (s.step source task) := by
  rw [Shared.step, hwork]
  cases reading with
  | done outcome =>
    have hcomes : comesTo (before.view source) task =
        afterTrial (before.view source) task.now trial
          (outcome.mapError .mismatch) := by
      rw [comesTo, hwork]
      rfl
    rcases outcome with cause | _ | _
    · exact ⟨hs, trivial, .inl hcomes.symm⟩
    · exact ⟨hs, trivial, .inl hcomes.symm⟩
    · exact ⟨hs, trivial, .inl hcomes.symm⟩
  | read message name next =>
    have hcomes : comesTo (before.view source) task =
        afterTrial (before.view source) task.now trial
          ((Reading.read message name next).outcome (before.view source)) := by
      rw [comesTo, hwork]
    have hview : s.engine.store.view source message name =
        before.view source message name := by
      rw [Store.view_of_warmed hs.warmed]
    have hmissing : (s.engine.store.get? name message).1 = .ok none →
        (before.get? name message).1 = .ok none := missing_of_warm hs
    have hindex := warm_index hs name
    have hstore : (s.engine.store.get? name message).2 = (s.engine.store.index name).2 := by
      rw [Store.get?_eq]
    rw [← hstore] at hindex
    rw [Store.view] at hview
    rw [Reading.outcome, ← hview] at hcomes
    simp only
    rcases hget : s.engine.store.get? name message with ⟨e | ⟨_ | value⟩, store⟩
    · rw [hget] at hindex hcomes
      exact ⟨hindex, trivial, .inl hcomes.symm⟩
    · -- no index holds the attribute now, so none has held it at first
      rw [hget] at hindex hmissing
      refine ⟨hindex, hmissing rfl, .inl ?_⟩
      rw [comesTo, comesTo, hwork]
      rfl
    · rw [hget] at hindex hcomes
      exact ⟨hindex, trivial, .inl hcomes.symm⟩

/-- What no index holds is known as the source says. -/
theorem view_of_missing {name : String} {message : UInt64}
    (h : (before.get? name message).1 = .ok none) :
    before.view source message name =
      (source.attr? message name).map fun value => value.getD .absent := by
  rw [Store.view, h]

theorem goes_ask (hs : Warm before source s) {trial : Trial} {held : Held}
    (hwork : task.work = .ask trial held) (hbacked : Backed before source task) :
    Goes before source task (s.step source task) := by
  have hcomes : comesTo (before.view source) task =
      afterTrial (before.view source) task.now trial
        (held.reading.outcome (before.view source)) := by
    rw [comesTo, hwork]
  rw [Backed, hwork] at hbacked
  rw [Held.reading, Reading.outcome, view_of_missing hbacked] at hcomes
  rw [Shared.step, hwork]
  simp only
  cases s.gates.grant? held.name with
  | none =>
    refine ⟨hs, hbacked, .inl ?_⟩
    rw [comesTo, comesTo, hwork]
  | some gates =>
    have hpassed : Warm before source { s with gates } := ⟨hs.warmed, hs.faithful⟩
    simp only
    rcases hanswer : source.attr? held.message held.name with e | _ | value
    · rw [hanswer] at hcomes
      exact ⟨hpassed, trivial, .inl hcomes.symm⟩
    · rw [hanswer] at hcomes
      exact ⟨hpassed, trivial, .inl hcomes.symm⟩
    · refine ⟨hpassed, ⟨hbacked, hanswer⟩, .inl ?_⟩
      rw [comesTo, comesTo, hwork]

/-- An answer of the source may be put where no index held anything at first, even when another
task has put it there meanwhile. -/
theorem warm_put (hs : Warm before source s) {name : String} {message : UInt64} {value : Value}
    (hmissing : (before.get? name message).1 = .ok none)
    (hanswer : source.attr? message name = .ok (some value)) :
    (s.engine.store.put name message value).1 = .ok () ∧
      Warm before source (s.withStore (s.engine.store.put name message value).2) := by
  -- the index can be read now because it could be at first
  have hget : ∃ entry, (s.engine.store.get? name message).1 = .ok entry := by
    rcases hs.warmed.entries name message with hsame | ⟨-, -, earlier, -, hearlier⟩
    · exact ⟨none, hsame.trans hmissing⟩
    · exact ⟨some earlier, hearlier⟩
  obtain ⟨entry, hentry⟩ := hget
  have hput := Store.put_ok hentry message value
  obtain ⟨hdisk, hdirectory⟩ := Store.put_frame s.engine.store name message value
  refine ⟨hput, ⟨hdisk.trans hs.warmed.disk, hdirectory.trans hs.warmed.directory,
    fun other m => ?_⟩, hs.faithful⟩
  rw [Shared.withStore, Store.get?_put hput]
  by_cases hplace : other = name ∧ m = message
  · obtain ⟨rfl, rfl⟩ := hplace
    exact .inr ⟨hmissing, trivial, value, hanswer, if_pos ⟨rfl, rfl⟩⟩
  · rw [if_neg hplace]
    exact hs.warmed.entries other m

theorem goes_warm (hs : Warm before source s) {trial : Trial} {held : Held}
    {value : Value} (hwork : task.work = .warm trial held value)
    (hbacked : Backed before source task) :
    Goes before source task (s.step source task) := by
  have hcomes : comesTo (before.view source) task =
      afterTrial (before.view source) task.now trial
        (held.reading.outcome (before.view source)) := by
    rw [comesTo, hwork]
  rw [Backed, hwork] at hbacked
  obtain ⟨hmissing, hanswer⟩ := hbacked
  obtain ⟨hput, hwarm⟩ := warm_put hs hmissing hanswer
  rw [Held.reading, Reading.outcome, view_of_missing hmissing, hanswer] at hcomes
  rw [Shared.step, hwork]
  simp only
  rcases hafter : s.engine.store.put held.name held.message value with ⟨result, store⟩
  rw [hafter] at hput hwarm
  obtain rfl : result = .ok () := hput
  exact ⟨hwarm, trivial, .inl hcomes.symm⟩

theorem goes_step (hs : Warm before source s)
    (hbacked : Backed before source task) :
    Goes before source task (s.step source task) := by
  cases hwork : task.work with
  | parse => exact goes_parse hs hwork
  | keep tree => exact goes_keep hs hwork hbacked
  | select tree accepted left => exact goes_select hs hwork
  | evaluate trial reading => exact goes_evaluate hs hwork
  | ask trial held => exact goes_ask hs hwork hbacked
  | warm trial held value => exact goes_warm hs hwork hbacked
  | leaving outcome | sending outcome | ended outcome =>
    rw [Shared.step, hwork]
    refine ⟨⟨hs.warmed, hs.faithful⟩, trivial, .inl ?_⟩
    rw [comesTo, comesTo, hwork]

end Steps

/-- A task comes to the outcome of its whole query, or it was cancelled and comes to nothing. -/
structure OnTrack (before : Store) (source : Source) (task : Task) : Prop where
  backed : Backed before source task
  outcome : comesTo (before.view source) task = wholeOutcome (before.view source) task.request ∨
    task.cancelled = true ∧ comesTo (before.view source) task = .error .cancelled

/-- All that holds of an interface at any time. -/
structure AllOnTrack (before : Store) (source : Source) (i : Interface) : Prop where
  warm : Warm before source i.toShared
  tasks : ∀ (place : Nat) (task : Task), i.tasks[place]? = some task → OnTrack before source task

section Tracks
variable {before : Store} {source : Source} {i : Interface}

theorem allOnTrack_enqueue (h : AllOnTrack before source i) (now : Instant) (query : String)
    (candidates : List Message) (budget : Option Nat) :
    AllOnTrack before source (i.enqueue now query candidates budget) := by
  refine ⟨⟨h.warm.warmed, h.warm.faithful⟩, fun place task htask => ?_⟩
  rcases enqueue_cases htask with ⟨-, rfl⟩ | hbefore
  · exact ⟨trivial, .inl rfl⟩
  · exact h.tasks place task hbefore

theorem allOnTrack_cancelAt (h : AllOnTrack before source i) (place : Nat) :
    AllOnTrack before source (i.cancelAt place) := by
  refine ⟨⟨h.warm.warmed, h.warm.faithful⟩, fun other task htask => ?_⟩
  rcases update_cases htask with ⟨earlier, rfl, hearlier, rfl⟩ | ⟨-, hearlier⟩
  · obtain ⟨hbacked, houtcome⟩ := h.tasks other earlier hearlier
    exact ⟨hbacked, houtcome.imp_right fun hcancelled => ⟨rfl, hcancelled.2⟩⟩
  · exact h.tasks other task hearlier

theorem allOnTrack_work (h : AllOnTrack before source i) (place : Nat) :
    AllOnTrack before source (i.work source place) := by
  cases hplace : i.tasks[place]? with
  | none =>
    rw [work_none source hplace]
    exact h
  | some worker =>
    obtain ⟨hbacked, houtcome⟩ := h.tasks place worker hplace
    have hgoes : Goes before source worker (i.step source worker) :=
      goes_step h.warm hbacked
    rw [work_some source hplace]
    refine ⟨hgoes.warm, fun other task htask => ?_⟩
    rcases update_cases htask with ⟨earlier, rfl, hearlier, rfl⟩ | ⟨-, hearlier⟩
    · obtain rfl : worker = earlier := Option.some.inj (hplace.symm.trans hearlier)
      refine ⟨hgoes.backed, ?_⟩
      -- a task that comes to nothing was cancelled before this step or stops with it
      rcases hgoes.outcome with hsame | hstopped
      · rcases houtcome with hwhole | ⟨hcancelled, hnothing⟩
        · exact .inl (hsame.trans hwhole)
        · exact .inr ⟨hcancelled, hsame.trans hnothing⟩
      · exact .inr hstopped
    · exact h.tasks other task hearlier

theorem allOnTrack_of_reached {first : Interface} (hfirst : first.tasks = [])
    (hcache : first.engine.cache.Faithful) {h : History} (hreached : Reached source first h) :
    AllOnTrack first.engine.store source h.interface := by
  refine reached_induction ?_ ?_ ?_ ?_ ?_ hreached
  · refine ⟨⟨Store.warmed_refl _, hcache⟩, fun place task htask => ?_⟩
    rw [hfirst] at htask
    cases htask
  · intro i r ih
    exact allOnTrack_enqueue ih r.now r.query r.candidates r.budget
  · intro i place ih
    exact allOnTrack_work ih place
  · intro i place ih
    exact allOnTrack_cancelAt ih place
  · intro i gates ih
    exact ⟨⟨ih.warm.warmed, ih.warm.faithful⟩, ih.tasks⟩

end Tracks

/-! ### Errors of queries that were interrupted -/

section Interruption
variable {α : Type} {source : Source}

/-- The query was neither cancelled nor given up. -/
def Uninterrupted : Except Error α → Prop
  | .error e => e ≠ .cancelled ∧ e ≠ .timeout
  | .ok _ => True

theorem ne_of_uninterrupted {outcome : Except Error α} (h : Uninterrupted outcome) :
    outcome ≠ .error .cancelled ∧ outcome ≠ .error .timeout := by
  cases outcome with
  | error e => exact ⟨fun heq => h.1 (Except.error.inj heq), fun heq => h.2 (Except.error.inj heq)⟩
  | ok a => exact ⟨nofun, nofun⟩

theorem uninterrupted_map {β : Type} (f : α → β) {outcome : Except Error α}
    (h : Uninterrupted outcome) : Uninterrupted (outcome.map f) := by
  cases outcome with
  | error e => exact h
  | ok a => trivial

theorem uninterrupted_load (d : Disk) (path : Path) (name : String) :
    Uninterrupted (Index.load d path name) := by
  refine uninterrupted_map _ ?_
  unfold Index.readAt
  split
  · trivial
  · exact ⟨nofun, nofun⟩
  · split
    · exact ⟨nofun, nofun⟩
    · trivial

theorem uninterrupted_index (s : Store) (name : String) : Uninterrupted (s.index name).1 := by
  have hload := uninterrupted_load s.disk (s.pathOf name) name
  unfold Store.index
  split
  · split
    · trivial
    · generalize Index.load s.disk (s.pathOf name) name = loaded at hload
      cases loaded with
      | error e => exact hload
      | ok i => trivial
  · exact ⟨nofun, nofun⟩

theorem uninterrupted_view (hsource : ∀ message name, Uninterrupted (source.attr? message name))
    (s : Store) (message : UInt64) (name : String) :
    Uninterrupted (s.view source message name) := by
  have hget := uninterrupted_map (fun i => i.get? message) (uninterrupted_index s name)
  have hanswer := uninterrupted_map (fun value => value.getD .absent) (hsource message name)
  rw [Store.view, Store.get?_eq]
  generalize (s.index name).1.map (fun i => i.get? message) = entry at hget
  rcases entry with e | _ | value
  · exact hget
  · exact hanswer
  · trivial

variable {known : UInt64 → String → Except Error Value}

theorem uninterrupted_outcome (hknown : ∀ message name, Uninterrupted (known message name))
    (reading : Reading α) : Uninterrupted (reading.outcome known) := by
  induction reading with
  | done outcome =>
    rcases outcome with cause | a
    · exact ⟨nofun, nofun⟩
    · trivial
  | read message name next ih =>
    have hanswer := hknown message name
    rw [Reading.outcome]
    generalize known message name = answer at hanswer
    cases answer with
    | error e => exact hanswer
    | ok value => exact ih value

theorem uninterrupted_selection (hknown : ∀ message name, Uninterrupted (known message name))
    (now : Instant) (tree : Predicate) (accepted left : List Message) :
    Uninterrupted (selection known now tree accepted left) := by
  induction left generalizing accepted with
  | nil => trivial
  | cons candidate rest ih =>
    have hverdict := uninterrupted_outcome hknown
      (tree.truth ⟨candidate.number, .ofNat accepted.length, now⟩)
    rw [selection_cons]
    generalize (tree.truth ⟨candidate.number, .ofNat accepted.length, now⟩).outcome known =
      verdict at hverdict
    rcases verdict with e | _ | _
    · exact hverdict
    · exact ih accepted
    · exact ih (candidate :: accepted)

theorem uninterrupted_wholeOutcome (hknown : ∀ message name, Uninterrupted (known message name))
    (r : Request) : Uninterrupted (wholeOutcome known r) := by
  rw [wholeOutcome]
  split
  · exact ⟨nofun, nofun⟩
  · exact uninterrupted_selection hknown r.now _ [] r.candidates

end Interruption

theorem wholeOutcome_eq_select {engine : Engine} (hcache : engine.cache.Faithful) (source : Source)
    (r : Request) : wholeOutcome (engine.store.view source) r =
      (engine.select source r.now r.query Message.number r.candidates).1 := by
  let call : Call := .select r.now (fun _ => false) r.query Message.number r.candidates
  have hcall : (engine.call source call).1 = call.known (engine.store.view source) source ∧
      (engine.call source call).2.cache.Faithful ∧
      Store.Warmed source (fun _ _ => True) engine.store (engine.call source call).2.store :=
    Engine.call_warmed hcache call fun _ _ _ => trivial
  exact hcall.1.symm

section Waits
variable {source : Source} {engine : Engine} {gates : Gates} {h : History}

/-- What a task has ended with is the outcome of the whole query, or it was cancelled. -/
theorem outcome_of_ended (hcache : engine.cache.Faithful)
    (hreached : Reached source { engine, gates } h) {place : Nat} {task : Task}
    {outcome : Except Error (List Message)} (htask : h.interface.tasks[place]? = some task)
    (hended : task.work = .ended outcome) :
    outcome = .error .cancelled ∧
        (place ∈ h.cancelled ∨ (place, .error .timeout) ∈ h.waits) ∨
      outcome = wholeOutcome (engine.store.view source) task.request := by
  have htrack := (allOnTrack_of_reached rfl hcache hreached).tasks place task htask
  have hcomes : comesTo (engine.store.view source) task = outcome := by
    rw [comesTo, hended]
  rcases htrack.outcome with hwhole | ⟨hcancelled, hnothing⟩
  · exact .inr (hcomes.symm.trans hwhole)
  · exact .inl ⟨hcomes.symm.trans hnothing, cancelled_or_timeOut hreached rfl rfl htask hcancelled⟩

/-- What a wait has returned is the outcome of the whole query, or says that the query was given up
or cancelled. -/
theorem outcome_of_waits (hcache : engine.cache.Faithful)
    (hreached : Reached source { engine, gates } h) {place : Nat}
    {outcome : Except Error (List Message)} (hwait : (place, outcome) ∈ h.waits) :
    ∃ r, h.requests[place]? = some r ∧
      (outcome = .error .timeout ∧ r.budget.isSome = true ∨
        outcome = .error .cancelled ∧ place ∈ h.cancelled ∨
        outcome = wholeOutcome (engine.store.view source) r) := by
  obtain ⟨task, htask, hended | ⟨htimeout, hbudget, -⟩⟩ := accounts_of_reached hreached _ hwait
  · refine ⟨task.request, getElem?_requests hreached rfl htask, .inr ?_⟩
    rcases outcome_of_ended hcache hreached htask hended with ⟨houtcome, hmem | htimeOut⟩ | hwhole
    · exact .inl ⟨houtcome, hmem⟩
    · -- whoever gave up has no handle left to wait with again
      cases houtcome.symm.trans (waits_unique hreached hwait htimeOut)
    · exact .inr hwhole
  · exact ⟨task.request, getElem?_requests hreached rfl htask, .inl ⟨htimeout, hbudget⟩⟩

/-- Once nothing is held back from the task of a query, a wait returns what the task has ended
with. -/
theorem waitAt_let_through (hcache : engine.cache.Faithful)
    (hreached : Reached source { engine, gates } h) {place : Nat} {r : Request}
    (hrequest : h.requests[place]? = some r) :
    ∃ outcome, (settleTask { h.interface with gates := Gates.opened } source place).waitAt place =
        (some outcome, settleTask { h.interface with gates := Gates.opened } source place) ∧
      (outcome = .error .cancelled ∧
          (place ∈ h.cancelled ∨ (place, .error .timeout) ∈ h.waits) ∨
        outcome = wholeOutcome (engine.store.view source) r) := by
  obtain ⟨hplace, -⟩ := List.getElem?_eq_some_iff.1 hrequest
  rw [length_requests hreached rfl] at hplace
  have htask := List.getElem?_eq_getElem hplace
  obtain ⟨outcome, hended, hreturned⟩ := waitAt_opened source htask
  have hopened := reached_settleTask (hreached.setGates Gates.opened) place
  have hsame : r = Task.request { h.interface.tasks[place] with work := .ended outcome } :=
    Option.some.inj (hrequest.symm.trans (getElem?_requests hopened rfl hended))
  exact ⟨outcome, hreturned, hsame ▸ outcome_of_ended hcache hopened hended rfl⟩

end Waits

/-- Queries in the background come to all or nothing, each as if it ran alone. Whatever tasks have
done, in whatever order, a wait returns a timeout for a query that has a budget, a cancellation for
a query that was cancelled, or what a selection returns for the query and its candidates in the
engine as it was before any of the queries; unless the source itself reports interruptions, no
others are cancelled or timed out. A wait for any query returns once nothing is held back from its
task, and then no timeout. All this holds of what is run for a session, with its gates in front of
the source. -/
theorem waits_whole_or_nothing {source : Source} {s : Store} {limit : Nat} {earlier : List String}
    {gates : Gates} {h : History}
    (hreached : Reached source
      { engine := { store := s, cache := ParseCache.after limit earlier }, gates } h) :
    let engine : Engine := { store := s, cache := ParseCache.after limit earlier }
    let whole (r : Request) := (engine.select source r.now r.query Message.number r.candidates).1
    (∀ place outcome, (place, outcome) ∈ h.waits →
      ∃ r, h.requests[place]? = some r ∧
        (outcome = .error .timeout ∧ r.budget.isSome = true ∨
          outcome = .error .cancelled ∧ place ∈ h.cancelled ∨ outcome = whole r) ∧
        ((∀ message name, Uninterrupted (source.attr? message name)) →
          (outcome = .error .timeout → r.budget.isSome = true) ∧
          (outcome = .error .cancelled → place ∈ h.cancelled))) ∧
    (∀ place r, h.requests[place]? = some r →
      let i := settleTask { h.interface with gates := Gates.opened } source place
      ∃ outcome, i.waitAt place = (some outcome, i) ∧
        (outcome = .error .cancelled ∧
            (place ∈ h.cancelled ∨ (place, .error .timeout) ∈ h.waits) ∨
          outcome = whole r)) ∧
    ∀ archive conducted, source = Gates.inFrontOf archive →
      Conducted archive { engine, gates } conducted → Reached source { engine, gates } conducted := by
  intro engine whole
  have hcache : engine.cache.Faithful := ParseCache.after_faithful limit earlier
  have hwhole (r : Request) : wholeOutcome (engine.store.view source) r = whole r :=
    wholeOutcome_eq_select hcache source r
  refine ⟨fun place outcome hwait => ?_, fun place r hrequest => ?_, ?_⟩
  · obtain ⟨r, hrequest, hcases⟩ := outcome_of_waits hcache hreached hwait
    refine ⟨r, hrequest, ?_, fun hsource => ?_⟩
    · rw [← hwhole]
      exact hcases
    · have hview := uninterrupted_view hsource engine.store
      obtain ⟨hnotCancelled, hnotTimeout⟩ :=
        ne_of_uninterrupted (uninterrupted_wholeOutcome hview r)
      refine ⟨?_, ?_⟩
      · rintro rfl
        rcases hcases with ⟨-, hbudget⟩ | ⟨hcancelled, -⟩ | hselect
        · exact hbudget
        · cases hcancelled
        · exact absurd hselect.symm hnotTimeout
      · rintro rfl
        rcases hcases with ⟨htimeout, -⟩ | ⟨-, hmem⟩ | hselect
        · cases htimeout
        · exact hmem
        · exact absurd hselect.symm hnotCancelled
  · rw [← hwhole]
    exact waitAt_let_through hcache hreached hrequest
  · rintro archive conducted rfl hconducted
    exact reached_of_conducted hconducted

/-- A source that knows who wrote every message. -/
def letters : Source where
  attr? _ name := .ok (if name = "author" then some (.text "ann") else none)
  messages _ := .ok []

def letter (number : UInt64) : Message :=
  ⟨number, 1, "ann", "hi", .midnight ⟨2024, 1, 2, by decide⟩⟩

def fromAnn (budget : Option Nat) : Request :=
  ⟨(letter 1).date, "(equal $author \"ann\")", [letter 1, letter 2], budget⟩

def resting : Interface where
  engine := { store := { disk := {}, directory := "idx" }, cache := ParseCache.after 256 [] }

/-- Two queries over the same messages have begun, and the second has put the author of the first
message into the index. -/
def begun : Interface :=
  let first := fromAnn none
  let second := fromAnn (some 20)
  let started := (resting.enqueue first.now first.query first.candidates first.budget).enqueue
    second.now second.query second.candidates second.budget
  [0, 1, 0, 1, 1, 1, 1, 1].foldl (fun i place => i.work letters place) started

/-- The second query was cancelled, and both have ended. -/
def bothEnded : Interface :=
  (List.replicate 15 0 ++ List.replicate 5 1).foldl (fun i place => i.work letters place)
    (begun.cancel 2).2

theorem waits_whole_or_nothing_interleaved :
    ∃ h, Reached letters resting h ∧ h.requests = [fromAnn none, fromAnn (some 20)] ∧
      h.waits = [(1, .error .cancelled), (0, .ok [letter 1, letter 2])] ∧ 1 ∈ h.cancelled ∧
      (resting.engine.select letters (letter 1).date "(equal $author \"ann\")" Message.number
        [letter 1, letter 2]).1 = .ok [letter 1, letter 2] := by
  have hbegun : Reached letters resting
      { interface := begun, requests := [fromAnn none, fromAnn (some 20)] } :=
    reached_works (.enqueue (.enqueue .first (fromAnn none)) (fromAnn (some 20)))
      [0, 1, 0, 1, 1, 1, 1, 1]
  obtain ⟨hfound, hwhole, hstopped⟩ :
      (if (begun.cancel 2).1 then begun.placesOf 2 ++ [] else []) = [1] ∧
      (bothEnded.waitAt 0).1 = some (.ok [letter 1, letter 2]) ∧
      ((bothEnded.waitAt 0).2.waitAt 1).1 = some (.error .cancelled) := by
    decide +kernel
  have hcancelled : Reached letters resting
      { interface := (begun.cancel 2).2
        requests := [fromAnn none, fromAnn (some 20)]
        cancelled := [1] } := hfound ▸ hbegun.cancel 2
  have hended := reached_works hcancelled (List.replicate 15 0 ++ List.replicate 5 1)
  have hreceived : Reached letters resting
      { interface := (bothEnded.waitAt 0).2
        requests := [fromAnn none, fromAnn (some 20)]
        cancelled := [1]
        waits := [(0, .ok [letter 1, letter 2])] } := by
    refine hended.wait ?_ (Prod.ext hwhole rfl)
    rintro ⟨outcome, hmem⟩
    cases hmem
  have hreached : Reached letters resting
      { interface := ((bothEnded.waitAt 0).2.waitAt 1).2
        requests := [fromAnn none, fromAnn (some 20)]
        cancelled := [1]
        waits := [(1, .error .cancelled), (0, .ok [letter 1, letter 2])] } := by
    refine hreceived.wait ?_ (Prod.ext hstopped rfl)
    rintro ⟨outcome, hmem⟩
    cases (Prod.mk.inj (List.mem_singleton.1 hmem)).1
  have hletters : ∀ message name, Uninterrupted (letters.attr? message name) :=
    fun _ _ => trivial
  obtain ⟨houtcomes, -, -⟩ := waits_whole_or_nothing hreached
  obtain ⟨_, _, _, honly⟩ := houtcomes 1 (.error .cancelled) (.head _)
  obtain ⟨r, hrequest, hcases, -⟩ := houtcomes 0 (.ok [letter 1, letter 2]) (.tail _ (.head _))
  obtain rfl : fromAnn none = r := Option.some.inj hrequest
  rcases hcases with ⟨htimeout, -⟩ | ⟨hnothing, -⟩ | hselect
  · cases htimeout
  · cases hnothing
  · exact ⟨_, hreached, rfl, rfl, (honly hletters).2 rfl, hselect.symm⟩

end Interface

end Colloquy
