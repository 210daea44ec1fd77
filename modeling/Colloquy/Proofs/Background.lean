import Colloquy.Background
import Colloquy.Proofs.Keyed
import Mathlib.Data.List.Nodup

/-!
Everything that can happen to queries over one engine, in any order. What is run for a session is
made of such events.
-/

namespace Colloquy

/-- What a caller asks for when it starts a query. -/
structure Request where
  now : Instant
  query : String
  candidates : List Message
  budget : Option Nat

def Task.request (task : Task) : Request :=
  ⟨task.now, task.query, task.candidates, task.budget⟩

namespace Interface

/-- The places of the queries of an id. -/
def placesOf (i : Interface) (id : Nat) : List Nat :=
  (List.range i.tasks.length).filter fun place => i.tasks[place]?.map Task.id = some id

/-- An interface, and what its callers have seen of it. -/
structure History where
  interface : Interface
  /-- What was asked for, in the places of the queries. -/
  requests : List Request := []
  /-- The queries that were cancelled, through their handle or by their id. -/
  cancelled : List Nat := []
  /-- What the waits for queries have returned. -/
  waits : List (Nat × Except Error (List Message)) := []

namespace History

/-- The handle of a query is used up by waiting for it. -/
def Waited (h : History) (place : Nat) : Prop := ∃ outcome, (place, outcome) ∈ h.waits

/-- The queries that were cancelled once a cancellation by id has told whether it found one. -/
def cancelledBy (h : History) (id : Nat) : List Nat :=
  if (h.interface.cancel id).1 then h.interface.placesOf id ++ h.cancelled else h.cancelled

end History

open History (Waited)

/-- The histories that any events lead to. -/
inductive Reached (source : Source) (first : Interface) : History → Prop where
  | first : Reached source first { interface := first }
  | enqueue {h : History} (reached : Reached source first h) (r : Request) :
      Reached source first
        { h with
          interface := h.interface.enqueue r.now r.query r.candidates r.budget
          requests := h.requests ++ [r] }
  | work {h : History} (reached : Reached source first h) (place : Nat) :
      Reached source first { h with interface := h.interface.work source place }
  | cancel {h : History} (reached : Reached source first h) (id : Nat) :
      Reached source first
        { h with interface := (h.interface.cancel id).2, cancelled := h.cancelledBy id }
  | cancelAt {h : History} (reached : Reached source first h) (place : Nat) :
      Reached source first
        { h with interface := h.interface.cancelAt place, cancelled := place :: h.cancelled }
  | wait {h : History} (reached : Reached source first h) {place : Nat}
      {outcome : Except Error (List Message)} {i : Interface} (unwaited : ¬ h.Waited place)
      (returned : h.interface.waitAt place = (some outcome, i)) :
      Reached source first { h with interface := i, waits := (place, outcome) :: h.waits }
  /-- A wait gives up late: the task has ended after the budget was spent, but before its token is
  set. -/
  | giveUp {h : History} (reached : Reached source first h) {place : Nat} {task : Task}
      (unwaited : ¬ h.Waited place) (started : h.interface.tasks[place]? = some task)
      (limited : task.budget.isSome = true) :
      Reached source first
        { h with
          interface := h.interface.cancelAt place
          waits := (place, .error .timeout) :: h.waits }
  | setGates {h : History} (reached : Reached source first h) (gates : Gates) :
      Reached source first { h with interface := { h.interface with gates } }

/-- The histories that a session leads to. It has gates in front of its source, goes by ids, and
lets tasks work until they rest. -/
inductive Conducted (archive : Source) (first : Interface) : History → Prop where
  | first : Conducted archive first { interface := first }
  | start {h : History} (conducted : Conducted archive first h) (r : Request) :
      Conducted archive first
        { h with
          interface := (h.interface.start archive r.now r.query r.candidates r.budget).2
          requests := h.requests ++ [r] }
  | permit {h : History} (conducted : Conducted archive first h) (gate : String)
      (permits : Permits) :
      Conducted archive first { h with interface := h.interface.permit archive gate permits }
  | cancel {h : History} (conducted : Conducted archive first h) (id : Nat) :
      Conducted archive first
        { h with interface := (h.interface.cancel id).2, cancelled := h.cancelledBy id }
  | cancelTask {h : History} (conducted : Conducted archive first h) (id : Nat) :
      Conducted archive first
        { h with
          interface := h.interface.cancelTask id
          cancelled := h.interface.handle id :: h.cancelled }
  | wait {h : History} (conducted : Conducted archive first h) {id : Nat}
      {outcome : Except Error (List Message)} {i : Interface}
      (unwaited : ¬ h.Waited (h.interface.handle id))
      (returned : h.interface.wait id = (some outcome, i)) :
      Conducted archive first
        { h with interface := i, waits := (h.interface.handle id, outcome) :: h.waits }
  | finish {h : History} (conducted : Conducted archive first h) :
      Conducted archive first { h with interface := h.interface.finish archive }

/-! ### The task in a place -/

section Places
variable {i : Interface} {place : Nat} {task : Task}

theorem getElem?_update (change : Task → Task) (h : i.tasks[place]? = some task) :
    (i.update place change).tasks[place]? = some (change task) := by
  rw [update, List.getElem?_modify_eq, h]
  rfl

theorem update_cases {change : Task → Task} {other : Nat}
    (h : (i.update place change).tasks[other]? = some task) :
    (∃ before, other = place ∧ i.tasks[place]? = some before ∧ task = change before) ∨
      other ≠ place ∧ i.tasks[other]? = some task := by
  by_cases hother : place = other
  · subst hother
    rw [update, List.getElem?_modify_eq] at h
    obtain ⟨before, hbefore, hchange⟩ := Option.map_eq_some_iff.1 h
    exact .inl ⟨before, rfl, hbefore, hchange.symm⟩
  · rw [update, List.getElem?_modify_ne _ _ hother] at h
    exact .inr ⟨Ne.symm hother, h⟩

theorem update_self {change : Task → Task} (h : i.tasks[place]? = some task)
    (hchange : change task = task) : i.update place change = i := by
  have htasks : i.tasks.modify place change = i.tasks := by
    apply List.ext_getElem?
    intro other
    by_cases hother : place = other
    · subst hother
      rw [List.getElem?_modify_eq, h]
      exact congrArg some hchange
    · rw [List.getElem?_modify_ne _ _ hother]
  rw [update, htasks]

theorem enqueue_cases {now : Instant} {query : String} {candidates : List Message}
    {budget : Option Nat}
    (h : (i.enqueue now query candidates budget).tasks[place]? = some task) :
    place = i.tasks.length ∧
        task = { id := (i.lastId + 1) % idLimit, query, candidates, now, budget } ∨
      i.tasks[place]? = some task := by
  rw [enqueue] at h
  rcases Nat.lt_trichotomy place i.tasks.length with hlt | heq | hgt
  · rw [List.getElem?_append_left hlt] at h
    exact .inr h
  · subst heq
    rw [List.getElem?_append_right (Nat.le_refl _), Nat.sub_self] at h
    exact .inl ⟨rfl, (Option.some.inj h).symm⟩
  · rw [List.getElem?_eq_none (by rw [List.length_append, List.length_singleton]; omega)] at h
    cases h

theorem work_some (source : Source) (h : i.tasks[place]? = some task) :
    i.work source place =
      { i.update place fun task' => { task' with work := (i.step source task).1 } with
        toShared := (i.step source task).2 } := by
  rw [work, h]

theorem work_none (source : Source) (h : i.tasks[place]? = none) : i.work source place = i := by
  rw [work, h]

theorem getElem?_work (source : Source) (h : i.tasks[place]? = some task) :
    (i.work source place).tasks[place]? = some { task with work := (i.step source task).1 } := by
  rw [work_some source h]
  exact getElem?_update _ h

theorem settleTask_some (source : Source) (h : i.tasks[place]? = some task) :
    i.settleTask source place =
      { i.update place fun task' => { task' with work := (i.toShared.settle source task).1 } with
        toShared := (i.toShared.settle source task).2 } := by
  rw [settleTask, h]

theorem settleTask_none (source : Source) (h : i.tasks[place]? = none) :
    i.settleTask source place = i := by
  rw [settleTask, h]

theorem settleTask_of_rests {source : Source} (h : i.tasks[place]? = some task)
    (hrests : i.rests task.work = true) : i.settleTask source place = i := by
  have hsettle : i.toShared.settle source task = (task.work, i.toShared) := by
    rw [Shared.settle, dif_pos hrests]
  rw [settleTask_some source h, hsettle]
  exact update_self h rfl

theorem settleTask_of_step {source : Source} (h : i.tasks[place]? = some task)
    (hgoes : i.rests task.work = false) :
    i.settleTask source place = (i.work source place).settleTask source place := by
  have hsettle : i.toShared.settle source task = (i.step source task).2.settle source
      { task with work := (i.step source task).1 } := by
    rw [Shared.settle, dif_neg (by rw [hgoes]; decide)]
  have hnext := getElem?_work source h
  -- the task is changed twice in its place, by the step and by what follows it
  rw [settleTask_some source h, settleTask_some source hnext, hsettle, work_some source h]
  simp only [update, List.modify_modify_eq]
  rfl

/-- A wait returns what the task has handed over and changes nothing, or it gives up and sets the
token. -/
theorem waitAt_cases {outcome : Except Error (List Message)} {j : Interface}
    (h : i.waitAt place = (some outcome, j)) :
    ∃ task, i.tasks[place]? = some task ∧
      (task.work = .ended outcome ∧ j = i ∨
        outcome = .error .timeout ∧ task.budget.isSome = true ∧ j = i.cancelAt place) := by
  unfold waitAt at h
  split at h
  · cases h
  · rename_i task htask
    refine ⟨task, htask, ?_⟩
    split at h
    · rename_i hended
      obtain ⟨houtcome, hsame⟩ := Prod.mk.inj h
      exact .inl ⟨hended.trans (congrArg Work.ended (Option.some.inj houtcome)), hsame.symm⟩
    · rename_i hbudget _
      obtain ⟨houtcome, hset⟩ := Prod.mk.inj h
      exact .inr ⟨(Option.some.inj houtcome).symm, by rw [hbudget]; rfl, hset.symm⟩
    · cases h

theorem waitAt_of_ended {outcome : Except Error (List Message)} (h : i.tasks[place]? = some task)
    (hended : task.work = .ended outcome) : i.waitAt place = (some outcome, i) := by
  rw [waitAt, h]
  simp only [hended]

theorem mem_placesOf {id : Nat} (h : i.tasks[place]? = some task) (hid : task.id = id) :
    place ∈ i.placesOf id := by
  obtain ⟨hplace, -⟩ := List.getElem?_eq_some_iff.1 h
  refine List.mem_filter.2 ⟨List.mem_range.2 hplace, decide_eq_true ?_⟩
  rw [h, Option.map_some, hid]

end Places

/-- What is kept by the four ways to change an interface holds at any time: to cancel by an id or to
wait is to cancel a task in its place or to change nothing. -/
theorem reached_induction {source : Source} {first : Interface} {P : Interface → Prop}
    (hfirst : P first)
    (henqueue : ∀ (i : Interface) (r : Request), P i →
      P (i.enqueue r.now r.query r.candidates r.budget))
    (hwork : ∀ (i : Interface) (place : Nat), P i → P (i.work source place))
    (hcancelAt : ∀ (i : Interface) (place : Nat), P i → P (i.cancelAt place))
    (hsetGates : ∀ (i : Interface) (gates : Gates), P i → P { i with gates })
    {h : History} (hreached : Reached source first h) : P h.interface := by
  induction hreached with
  | first => exact hfirst
  | enqueue _ r ih => exact henqueue _ r ih
  | work _ place ih => exact hwork _ place ih
  | cancel _ id ih =>
    rw [cancel]
    split
    · exact ih
    · exact hcancelAt _ _ ih
  | cancelAt _ place ih => exact hcancelAt _ place ih
  | wait _ _ hreturned ih =>
    obtain ⟨-, -, ⟨-, rfl⟩ | ⟨-, -, rfl⟩⟩ := waitAt_cases hreturned
    · exact ih
    · exact hcancelAt _ _ ih
  | giveUp _ _ _ _ ih => exact hcancelAt _ _ ih
  | setGates _ gates ih => exact hsetGates _ gates ih

/-! ### What stays -/

/-- Besides the engine, a step changes the registry when the task leaves it, and the gates when it
asks the source. -/
theorem step_frame (s : Shared) (source : Source) (task : Task) :
    (∃ outcome, task.work = .leaving outcome) ∨ (∃ trial held, task.work = .ask trial held) ∨
      ∃ work engine, s.step source task = (work, { s with engine }) ∧
        work.signedOff = task.work.signedOff := by
  cases hwork : task.work with
  | leaving outcome => exact .inl ⟨outcome, rfl⟩
  | ask trial held => exact .inr (.inl ⟨trial, held, rfl⟩)
  | parse =>
    refine .inr (.inr ?_)
    rw [Shared.step, hwork]
    simp only
    split
    · exact ⟨_, s.engine, rfl, rfl⟩
    · split
      · exact ⟨_, s.engine, rfl, rfl⟩
      · exact ⟨_, s.engine, rfl, rfl⟩
  | keep tree =>
    refine .inr (.inr ?_)
    rw [Shared.step, hwork]
    exact ⟨_, _, rfl, rfl⟩
  | select tree accepted left =>
    refine .inr (.inr ?_)
    rw [Shared.step, hwork]
    cases left with
    | nil => exact ⟨_, s.engine, rfl, rfl⟩
    | cons candidate rest =>
      simp only
      split
      · exact ⟨_, s.engine, rfl, rfl⟩
      · exact ⟨_, s.engine, rfl, rfl⟩
  | evaluate trial reading =>
    refine .inr (.inr ?_)
    rw [Shared.step, hwork]
    cases reading with
    | done outcome =>
      rcases outcome with cause | _ | _
      · exact ⟨_, s.engine, rfl, rfl⟩
      · exact ⟨_, s.engine, rfl, rfl⟩
      · exact ⟨_, s.engine, rfl, rfl⟩
    | read message name next =>
      simp only
      rcases s.engine.store.get? name message with ⟨e | ⟨_ | value⟩, store⟩
      · exact ⟨_, { s.engine with store }, rfl, rfl⟩
      · exact ⟨_, { s.engine with store }, rfl, rfl⟩
      · exact ⟨_, { s.engine with store }, rfl, rfl⟩
  | warm trial held value =>
    refine .inr (.inr ?_)
    rw [Shared.step, hwork]
    simp only
    rcases s.engine.store.put held.name held.message value with ⟨e | _, store⟩
    · exact ⟨_, { s.engine with store }, rfl, rfl⟩
    · exact ⟨_, { s.engine with store }, rfl, rfl⟩
  | sending outcome | ended outcome =>
    refine .inr (.inr ?_)
    rw [Shared.step, hwork]
    exact ⟨_, s.engine, rfl, rfl⟩

/-- A step leaves the registry alone, unless it is the one by which a task signs off. -/
theorem step_registry (s : Shared) (source : Source) (task : Task) :
    (∃ outcome, task.work = .leaving outcome ∧
      s.step source task =
        (.sending outcome, { s with registry := Keyed.erase task.id s.registry })) ∨
    (s.step source task).1.signedOff = task.work.signedOff ∧
      (s.step source task).2.registry = s.registry := by
  rcases step_frame s source task with ⟨outcome, hwork⟩ | ⟨trial, held, hwork⟩ |
    ⟨work, engine, hstep, hsigned⟩
  · refine .inl ⟨outcome, hwork, ?_⟩
    rw [Shared.step, hwork]
  · refine .inr ?_
    rw [Shared.step, hwork]
    simp only
    cases s.gates.grant? held.name with
    | none => exact ⟨rfl, rfl⟩
    | some gates =>
      simp only
      rcases source.attr? held.message held.name with e | _ | value
      · exact ⟨rfl, rfl⟩
      · exact ⟨rfl, rfl⟩
      · exact ⟨rfl, rfl⟩
  · rw [hstep]
    exact .inr ⟨hsigned, rfl⟩

/-- A task as it is found later: it keeps its id and what was asked for, a token stays set, and an
outcome that was handed over stays. -/
structure Later (task later : Task) : Prop where
  id : later.id = task.id
  request : later.request = task.request
  cancelled : task.cancelled = true → later.cancelled = true
  ended : ∀ outcome, task.work = .ended outcome → later.work = .ended outcome

theorem later_refl (task : Task) : Later task task := ⟨rfl, rfl, id, fun _ h => h⟩

/-- Every task is found later in its place. -/
def Keeps (i j : Interface) : Prop := ∀ (place : Nat) (task : Task), i.tasks[place]? = some task →
  ∃ later, j.tasks[place]? = some later ∧ Later task later

theorem keeps_enqueue (i : Interface) (now : Instant) (query : String) (candidates : List Message)
    (budget : Option Nat) : Keeps i (i.enqueue now query candidates budget) := by
  intro place task htask
  obtain ⟨hplace, -⟩ := List.getElem?_eq_some_iff.1 htask
  refine ⟨task, ?_, later_refl task⟩
  rw [enqueue, List.getElem?_append_left hplace, htask]

theorem keeps_update (i : Interface) (other : Nat) {change : Task → Task}
    (hchange : ∀ task, i.tasks[other]? = some task → Later task (change task)) :
    Keeps i (i.update other change) := by
  intro place task htask
  by_cases hother : other = place
  · subst hother
    exact ⟨change task, getElem?_update change htask, hchange task htask⟩
  · refine ⟨task, ?_, later_refl task⟩
    rw [update, List.getElem?_modify_ne _ _ hother, htask]

theorem keeps_work (i : Interface) (source : Source) (other : Nat) :
    Keeps i (i.work source other) := by
  cases hother : i.tasks[other]? with
  | none =>
    rw [work_none source hother]
    exact fun place task htask => ⟨task, htask, later_refl task⟩
  | some worker =>
    rw [work_some source hother]
    refine keeps_update i other fun task htask => ?_
    obtain rfl : worker = task := Option.some.inj (hother.symm.trans htask)
    refine ⟨rfl, rfl, id, fun outcome hended => ?_⟩
    -- a task that has ended stays as it is
    simp only [Shared.step, hended]

theorem keeps_cancelAt (i : Interface) (other : Nat) : Keeps i (i.cancelAt other) :=
  keeps_update i other fun _ _ => ⟨rfl, rfl, fun _ => rfl, fun _ hended => hended⟩

theorem keeps_cancel (i : Interface) (id : Nat) : Keeps i (i.cancel id).2 := by
  rw [cancel]
  split
  · exact fun place task htask => ⟨task, htask, later_refl task⟩
  · rename_i other _
    exact keeps_cancelAt i other

theorem keeps_waitAt {i j : Interface} {place : Nat} {outcome : Except Error (List Message)}
    (h : i.waitAt place = (some outcome, j)) : Keeps i j := by
  obtain ⟨-, -, ⟨-, rfl⟩ | ⟨-, -, rfl⟩⟩ := waitAt_cases h
  · exact fun place task htask => ⟨task, htask, later_refl task⟩
  · exact keeps_cancelAt i place

section Requests
variable {source : Source} {first : Interface} {h : History}

theorem map_request_update (i : Interface) (place : Nat) {change : Task → Task}
    (hchange : ∀ task, (change task).request = task.request) :
    (i.update place change).tasks.map Task.request = i.tasks.map Task.request := by
  apply List.ext_getElem?
  intro other
  rw [update, List.getElem?_map, List.getElem?_map, List.getElem?_modify]
  split
  · cases i.tasks[other]? with
    | none => rfl
    | some task => exact congrArg some (hchange task)
  · cases i.tasks[other]? with
    | none => rfl
    | some task => rfl

theorem map_request_work (i : Interface) (source : Source) (place : Nat) :
    (i.work source place).tasks.map Task.request = i.tasks.map Task.request := by
  cases htask : i.tasks[place]? with
  | none => rw [work_none source htask]
  | some task =>
    rw [work_some source htask]
    exact map_request_update i place fun _ => rfl

theorem map_request_cancelAt (i : Interface) (place : Nat) :
    (i.cancelAt place).tasks.map Task.request = i.tasks.map Task.request :=
  map_request_update i place fun _ => rfl

/-- Every task does what was asked for in its place. -/
theorem requests_of_reached (hreached : Reached source first h) (hfirst : first.tasks = []) :
    h.interface.tasks.map Task.request = h.requests := by
  induction hreached with
  | first =>
    rw [hfirst]
    rfl
  | enqueue _ r ih =>
    rw [enqueue, List.map_append, ih]
    rfl
  | work _ place ih => rw [map_request_work, ih]
  | cancel _ id ih =>
    rw [cancel]
    split
    · exact ih
    · rw [map_request_cancelAt, ih]
  | cancelAt _ place ih => rw [map_request_cancelAt, ih]
  | wait _ _ hreturned ih =>
    obtain ⟨-, -, ⟨-, rfl⟩ | ⟨-, -, rfl⟩⟩ := waitAt_cases hreturned
    · exact ih
    · rw [map_request_cancelAt, ih]
  | giveUp _ _ _ _ ih => rw [map_request_cancelAt, ih]
  | setGates _ _ ih => exact ih

theorem getElem?_requests (hreached : Reached source first h) (hfirst : first.tasks = [])
    {place : Nat} {task : Task} (htask : h.interface.tasks[place]? = some task) :
    h.requests[place]? = some task.request := by
  rw [← requests_of_reached hreached hfirst, List.getElem?_map, htask]
  rfl

theorem length_requests (hreached : Reached source first h) (hfirst : first.tasks = []) :
    h.requests.length = h.interface.tasks.length := by
  rw [← requests_of_reached hreached hfirst, List.length_map]

end Requests

/-- The registry has each id for a task of that id. -/
def Registered (i : Interface) (registry : List (Nat × Nat)) : Prop :=
  ∀ e ∈ registry, ∃ task, i.tasks[e.2]? = some task ∧ task.id = e.1

theorem registered_later {i j : Interface} {registry : List (Nat × Nat)}
    (hregistered : Registered i registry) (hkeeps : Keeps i j) : Registered j registry := by
  intro e he
  obtain ⟨task, htask, hid⟩ := hregistered e he
  obtain ⟨later, hlater, hsame⟩ := hkeeps e.2 task htask
  exact ⟨later, hlater, hsame.id.trans hid⟩

theorem registered_enqueue {i : Interface} (h : Registered i i.registry) (now : Instant)
    (query : String) (candidates : List Message) (budget : Option Nat) :
    Registered (i.enqueue now query candidates budget)
      (i.enqueue now query candidates budget).registry := by
  intro e he
  rcases Keyed.mem_insert he with rfl | hbefore
  · refine ⟨{ id := (i.lastId + 1) % idLimit, query, candidates, now, budget }, ?_, rfl⟩
    rw [enqueue, List.getElem?_append_right (Nat.le_refl _), Nat.sub_self]
    rfl
  · exact registered_later h (keeps_enqueue i now query candidates budget) e hbefore

theorem registered_work {i : Interface} (h : Registered i i.registry) (source : Source)
    (place : Nat) : Registered (i.work source place) (i.work source place).registry := by
  have hstays : ∀ e ∈ (i.work source place).registry, e ∈ i.registry := by
    cases htask : i.tasks[place]? with
    | none =>
      rw [work_none source htask]
      exact fun e he => he
    | some task =>
      rw [work_some source htask]
      intro e he
      rcases step_registry i.toShared source task with ⟨outcome, -, hstep⟩ | ⟨-, hsame⟩
      · rw [hstep] at he
        exact List.mem_of_mem_filter he
      · exact hsame ▸ he
  intro e he
  exact registered_later h (keeps_work i source place) e (hstays e he)

theorem registered_of_reached {source : Source} {first : Interface} {h : History}
    (hreached : Reached source first h) (hfirst : first.registry = []) :
    Registered h.interface h.interface.registry := by
  refine reached_induction (P := fun i => Registered i i.registry) ?_ ?_ ?_ ?_ ?_ hreached
  · intro e he
    rw [hfirst] at he
    cases he
  · intro i r ih
    exact registered_enqueue ih r.now r.query r.candidates r.budget
  · intro i place ih
    exact registered_work ih source place
  · intro i place ih
    exact registered_later ih (keeps_cancelAt i place)
  · intro i gates ih
    exact ih

/-- What a wait has returned: the outcome that the task has handed over, or that the budget was
spent, and then the task is cancelled. -/
def Returned (task : Task) (outcome : Except Error (List Message)) : Prop :=
  task.work = .ended outcome ∨
    outcome = .error .timeout ∧ task.budget.isSome = true ∧ task.cancelled = true

/-- The tasks account for everything that waits have returned. -/
def Accounts (i : Interface) (waits : List (Nat × Except Error (List Message))) : Prop :=
  ∀ wait ∈ waits, ∃ task, i.tasks[wait.1]? = some task ∧ Returned task wait.2

section Waits
variable {source : Source} {first : Interface} {h : History}

theorem returned_later {task later : Task} {outcome : Except Error (List Message)}
    (hreturned : Returned task outcome) (hlater : Later task later) : Returned later outcome := by
  rcases hreturned with hended | ⟨houtcome, hbudget, hcancelled⟩
  · exact .inl (hlater.ended outcome hended)
  · have hsame : later.budget = task.budget := congrArg Request.budget hlater.request
    exact .inr ⟨houtcome, hsame ▸ hbudget, hlater.cancelled hcancelled⟩

theorem accounts_later {i j : Interface} {waits : List (Nat × Except Error (List Message))}
    (haccounts : Accounts i waits) (hkeeps : Keeps i j) : Accounts j waits := by
  intro wait hwait
  obtain ⟨task, htask, hreturned⟩ := haccounts wait hwait
  obtain ⟨later, hfound, hlater⟩ := hkeeps wait.1 task htask
  exact ⟨later, hfound, returned_later hreturned hlater⟩

theorem accounts_of_reached (hreached : Reached source first h) :
    Accounts h.interface h.waits := by
  induction hreached with
  | first =>
    intro wait hwait
    cases hwait
  | enqueue _ r ih => exact accounts_later ih (keeps_enqueue _ r.now r.query r.candidates r.budget)
  | work _ place ih => exact accounts_later ih (keeps_work _ source place)
  | cancel _ id ih => exact accounts_later ih (keeps_cancel _ id)
  | cancelAt _ place ih => exact accounts_later ih (keeps_cancelAt _ place)
  | @wait h _ place outcome i _ hreturned ih =>
    refine List.forall_mem_cons.2 ⟨?_, accounts_later ih (keeps_waitAt hreturned)⟩
    obtain ⟨task, htask, ⟨hended, rfl⟩ | ⟨rfl, hbudget, rfl⟩⟩ := waitAt_cases hreturned
    · exact ⟨task, htask, .inl hended⟩
    · exact ⟨_, getElem?_update _ htask, .inr ⟨rfl, hbudget, rfl⟩⟩
  | giveUp _ _ hstarted hlimited ih =>
    refine List.forall_mem_cons.2 ⟨?_, accounts_later ih (keeps_cancelAt _ _)⟩
    exact ⟨_, getElem?_update _ hstarted, .inr ⟨rfl, hlimited, rfl⟩⟩
  | setGates _ _ ih => exact ih

/-- A handle is waited with once. -/
theorem nodup_waits (hreached : Reached source first h) : (h.waits.map Prod.fst).Nodup := by
  have hcons {h : History} {place : Nat} (hunwaited : ¬ h.Waited place)
      (ih : (h.waits.map Prod.fst).Nodup) : (place :: h.waits.map Prod.fst).Nodup := by
    refine List.nodup_cons.2 ⟨fun hmem => ?_, ih⟩
    obtain ⟨⟨_, outcome⟩, hwait, rfl⟩ := List.mem_map.1 hmem
    exact hunwaited ⟨outcome, hwait⟩
  induction hreached with
  | first => exact List.nodup_nil
  | enqueue _ _ ih | work _ _ ih | cancel _ _ ih | cancelAt _ _ ih | setGates _ _ ih => exact ih
  | wait _ hunwaited _ ih => exact hcons hunwaited ih
  | giveUp _ hunwaited _ _ ih => exact hcons hunwaited ih

theorem waits_unique (hreached : Reached source first h) {place : Nat}
    {outcome other : Except Error (List Message)} (hwait : (place, outcome) ∈ h.waits)
    (hother : (place, other) ∈ h.waits) : outcome = other := by
  have hsame : (place, outcome) = (place, other) :=
    List.inj_on_of_nodup_map (nodup_waits hreached) hwait hother rfl
  exact (Prod.mk.inj hsame).2

/-- A token is set by a cancellation or by a wait that gave up, and by nothing else. -/
theorem cancelled_or_timeOut (hreached : Reached source first h) (hfirst : first.tasks = [])
    (hregistry : first.registry = []) :
    ∀ {place task}, h.interface.tasks[place]? = some task → task.cancelled = true →
      place ∈ h.cancelled ∨ (place, .error .timeout) ∈ h.waits := by
  induction hreached with
  | first =>
    intro place task htask
    rw [hfirst] at htask
    cases htask
  | enqueue _ r ih =>
    intro place task htask hcancelled
    rcases enqueue_cases htask with ⟨-, rfl⟩ | hbefore
    · cases hcancelled
    · exact ih hbefore hcancelled
  | @work h _ other ih =>
    intro place task htask hcancelled
    cases hother : h.interface.tasks[other]? with
    | none =>
      rw [work_none source hother] at htask
      exact ih htask hcancelled
    | some worker =>
      rw [work_some source hother] at htask
      -- a step leaves tokens alone
      rcases update_cases htask with ⟨before, rfl, hbefore, rfl⟩ | ⟨-, hbefore⟩
      · exact ih hbefore hcancelled
      · exact ih hbefore hcancelled
  | @cancel h hbefore id ih =>
    intro place task htask hcancelled
    rw [History.cancelledBy]
    rw [cancel] at htask ⊢
    cases hfind : Keyed.find? id h.interface.registry with
    | none =>
      rw [hfind] at htask
      exact ih htask hcancelled
    | some other =>
      rw [hfind] at htask
      rcases update_cases htask with ⟨before, rfl, hfound, -⟩ | ⟨-, hfound⟩
      · obtain ⟨registered, hregistered, hid⟩ :=
          registered_of_reached hbefore hregistry _ (Keyed.mem_of_find? hfind)
        exact .inl (List.mem_append_left _ (mem_placesOf hregistered hid))
      · exact (ih hfound hcancelled).imp_left (List.mem_append_right _)
  | cancelAt _ other ih =>
    intro place task htask hcancelled
    rcases update_cases htask with ⟨before, rfl, -, -⟩ | ⟨-, hbefore⟩
    · exact .inl List.mem_cons_self
    · exact (ih hbefore hcancelled).imp_left (List.mem_cons_of_mem _)
  | wait _ _ hreturned ih =>
    intro place task htask hcancelled
    obtain ⟨-, -, ⟨-, rfl⟩ | ⟨rfl, -, rfl⟩⟩ := waitAt_cases hreturned
    · exact (ih htask hcancelled).imp_right (List.mem_cons_of_mem _)
    · rcases update_cases htask with ⟨before, rfl, -, -⟩ | ⟨-, hbefore⟩
      · exact .inr List.mem_cons_self
      · exact (ih hbefore hcancelled).imp_right (List.mem_cons_of_mem _)
  | giveUp _ _ _ _ ih =>
    intro place task htask hcancelled
    rcases update_cases htask with ⟨before, rfl, -, -⟩ | ⟨-, hbefore⟩
    · exact .inr List.mem_cons_self
    · exact (ih hbefore hcancelled).imp_right (List.mem_cons_of_mem _)
  | setGates _ _ ih => exact ih

end Waits

/-! ### What is run for a session -/

section Runs
variable {source : Source} {first : Interface} {h : History}

theorem reached_works (hreached : Reached source first h) (places : List Nat) : Reached source first
    { h with interface := places.foldl (fun i place => i.work source place) h.interface } := by
  induction places generalizing h with
  | nil => exact hreached
  | cons place rest ih => exact ih (hreached.work place)

theorem reached_settleTask_some {h : History} (hreached : Reached source first h) {place : Nat}
    {task : Task} (htask : h.interface.tasks[place]? = some task) :
    Reached source first { h with interface := h.interface.settleTask source place } := by
  -- by induction on what is left to do for the task
  cases hrests : h.interface.rests task.work with
  | true =>
    rw [settleTask_of_rests htask hrests]
    exact hreached
  | false =>
    rw [settleTask_of_step htask hrests]
    exact reached_settleTask_some (hreached.work place) (getElem?_work source htask)
termination_by task.work
decreasing_by exact Shared.step_before hrests

theorem reached_settleTask (hreached : Reached source first h) (place : Nat) :
    Reached source first { h with interface := h.interface.settleTask source place } := by
  cases htask : h.interface.tasks[place]? with
  | none =>
    rw [settleTask_none source htask]
    exact hreached
  | some task => exact reached_settleTask_some hreached htask

theorem reached_settle (hreached : Reached source first h) :
    Reached source first { h with interface := h.interface.settle source } := by
  rw [settle]
  generalize List.range h.interface.tasks.length = places
  induction places generalizing h with
  | nil => exact hreached
  | cons place rest ih => exact ih (reached_settleTask hreached place)

/-- What a session does is made of the events that can happen to its queries. -/
theorem reached_of_conducted {archive : Source} (hconducted : Conducted archive first h) :
    Reached (Gates.inFrontOf archive) first h := by
  induction hconducted with
  | first => exact .first
  | @start h _ r ih => exact reached_settleTask (ih.enqueue r) h.interface.tasks.length
  | @permit h _ gate permits ih =>
    exact reached_settle (ih.setGates (h.interface.gates.set gate permits))
  | cancel _ id ih => exact ih.cancel id
  | @cancelTask h _ id ih => exact ih.cancelAt (h.interface.handle id)
  | wait _ hunwaited hreturned ih => exact ih.wait hunwaited hreturned
  | finish _ ih => exact (reached_settle (ih.setGates Gates.opened)).setGates Gates.closed

end Runs

/-! ### Tasks that are let through -/

section Opened
variable {s : Shared} {source : Source} {task : Task}

theorem grant?_opened (name : String) : Gates.opened.grant? name = some Gates.opened := by
  unfold Gates.grant?
  split
  · rfl
  · rfl

theorem step_opened (h : s.gates = Gates.opened) :
    (s.step source task).2.gates = Gates.opened := by
  rcases step_frame s source task with ⟨outcome, hwork⟩ | ⟨trial, held, hwork⟩ |
    ⟨work, engine, hstep, -⟩
  · rw [Shared.step, hwork]
    exact h
  · rw [Shared.step, hwork, h]
    simp only [grant?_opened]
    rcases source.attr? held.message held.name with e | _ | value
    · rfl
    · rfl
    · rfl
  · rw [hstep]
    exact h

theorem ended_of_rests_opened (h : s.gates = Gates.opened) {work : Work}
    (hrests : s.rests work = true) : ∃ outcome, work = .ended outcome := by
  cases work with
  | ended outcome => exact ⟨outcome, rfl⟩
  | ask trial held =>
    rw [Shared.rests, h, grant?_opened] at hrests
    cases hrests
  | parse => cases hrests
  | keep tree => cases hrests
  | select tree accepted left => cases hrests
  | evaluate trial reading => cases hrests
  | warm trial held value => cases hrests
  | leaving outcome => cases hrests
  | sending outcome => cases hrests

theorem settle_opened (s : Shared) (source : Source) (task : Task) (h : s.gates = Gates.opened) :
    ∃ outcome, (s.settle source task).1 = .ended outcome := by
  -- by induction on what is left to do; gates that are open stay open
  cases hrests : s.rests task.work with
  | true =>
    rw [Shared.settle, dif_pos hrests]
    exact ended_of_rests_opened h hrests
  | false =>
    have hgoes : ¬ s.rests task.work = true := by
      rw [hrests]
      decide
    rw [Shared.settle, dif_neg hgoes]
    exact settle_opened _ source _ (step_opened h)
termination_by task.work
decreasing_by exact Shared.step_before hrests

/-- Every query comes to an end when nothing is held back from its task, and a wait hands over its
outcome. -/
theorem waitAt_opened (source : Source) {i : Interface} {place : Nat} {task : Task}
    (htask : i.tasks[place]? = some task) :
    ∃ outcome, (settleTask { i with gates := Gates.opened } source place).tasks[place]? =
        some { task with work := .ended outcome } ∧
      (settleTask { i with gates := Gates.opened } source place).waitAt place =
        (some outcome, settleTask { i with gates := Gates.opened } source place) := by
  have hopened : ({ i with gates := Gates.opened } : Interface).tasks[place]? = some task := htask
  obtain ⟨outcome, hended⟩ :=
    settle_opened { i.toShared with gates := Gates.opened } source task rfl
  have hnow : (settleTask { i with gates := Gates.opened } source place).tasks[place]? =
      some { task with work := .ended outcome } := by
    rw [settleTask_some source hopened, hended]
    exact getElem?_update _ hopened
  exact ⟨outcome, hnow, waitAt_of_ended hnow rfl⟩

end Opened

end Interface

end Colloquy
