import Colloquy.Proofs.Background
import Colloquy.Proofs.Keyed

/-!
The registry has exactly the queries that run, from when they are started to when their tasks sign
off, whatever the outcome.
-/

namespace Colloquy.Interface

/-- The entries that the registry has for tasks: where no id comes round again, the place of a task
is one less than its id. -/
def entriesOf (tasks : List Task) : List (Nat × Nat) :=
  (tasks.filter fun task => !task.work.signedOff).map fun task => (task.id, task.id - 1)

section Entries
variable {tasks : List Task}

theorem entriesOf_cons (task : Task) (rest : List Task) :
    entriesOf (task :: rest) =
      if task.work.signedOff then entriesOf rest
      else (task.id, task.id - 1) :: entriesOf rest := by
  rw [entriesOf, List.filter_cons]
  cases task.work.signedOff with
  | true => rfl
  | false => rfl

theorem mem_entriesOf {e : Nat × Nat} : e ∈ entriesOf tasks ↔
    ∃ task ∈ tasks, task.work.signedOff = false ∧ e = (task.id, task.id - 1) := by
  simp only [entriesOf, List.mem_map, List.mem_filter, Bool.not_eq_true']
  constructor
  · rintro ⟨task, ⟨htask, hregistered⟩, rfl⟩
    exact ⟨task, htask, hregistered, rfl⟩
  · rintro ⟨task, htask, hregistered, rfl⟩
    exact ⟨task, ⟨htask, hregistered⟩, rfl⟩

/-- Only the id of a task counts, and whether it has signed off. -/
theorem entriesOf_modify {place : Nat} {change : Task → Task}
    (h : ∀ task, tasks[place]? = some task →
      (change task).id = task.id ∧ (change task).work.signedOff = task.work.signedOff) :
    entriesOf (tasks.modify place change) = entriesOf tasks := by
  induction tasks generalizing place with
  | nil => rw [List.modify_nil]
  | cons task rest ih =>
    cases place with
    | zero =>
      obtain ⟨hid, hsigned⟩ := h task rfl
      rw [List.modify_zero_cons, entriesOf_cons, entriesOf_cons, hid, hsigned]
    | succ place =>
      have hrest : entriesOf (rest.modify place change) = entriesOf rest :=
        ih fun later hlater => h later hlater
      rw [List.modify_succ_cons, entriesOf_cons, entriesOf_cons, hrest]

/-- Ids are given out in ascending order. -/
def Ascends (tasks : List Task) : Prop := tasks.Pairwise fun a b => a.id < b.id

theorem entriesOf_signOff (hascends : Ascends tasks) {place : Nat} {task : Task}
    (htask : tasks[place]? = some task) (hregistered : task.work.signedOff = false)
    {change : Task → Task} (hchange : (change task).work.signedOff = true) :
    entriesOf (tasks.modify place change) = Keyed.erase task.id (entriesOf tasks) := by
  induction tasks generalizing place with
  | nil => cases htask
  | cons head rest ih =>
    obtain ⟨hhead, hrest⟩ := List.pairwise_cons.1 hascends
    cases place with
    | zero =>
      obtain rfl : head = task := Option.some.inj htask
      -- later tasks have later ids, so their entries stay
      have hothers : ∀ e ∈ entriesOf rest, e.1 ≠ head.id := by
        intro e he
        obtain ⟨later, hlater, -, rfl⟩ := mem_entriesOf.1 he
        exact Nat.ne_of_gt (hhead later hlater)
      rw [List.modify_zero_cons, entriesOf_cons, entriesOf_cons, hchange, hregistered]
      simp only [if_true, Bool.false_eq_true, if_false]
      rw [Keyed.erase_cons_self, Keyed.erase_of_not_mem hothers]
    | succ place =>
      have hmem : task ∈ rest := List.mem_of_getElem? htask
      have hne : head.id ≠ task.id := Nat.ne_of_lt (hhead task hmem)
      rw [List.modify_succ_cons, entriesOf_cons, entriesOf_cons, ih hrest htask]
      split
      · rfl
      · rw [Keyed.erase_cons_of_ne hne]

theorem sorted_entriesOf (hascends : Ascends tasks) : Keyed.Sorted (entriesOf tasks) := by
  have hrunning := hascends.filter fun task => !task.work.signedOff
  refine List.pairwise_map.2 (hrunning.imp fun hlt => ?_)
  exact Nat.compare_eq_lt.2 hlt

end Entries

/-- The registry is told by the tasks, and they are numbered one after another. -/
structure Exact (i : Interface) : Prop where
  last : i.lastId = i.tasks.length
  ids : ∀ place task, i.tasks[place]? = some task → task.id = place + 1
  registry : i.registry = entriesOf i.tasks

section Exactness
variable {i : Interface}

theorem ascends_of_exact (h : Exact i) : Ascends i.tasks := by
  refine List.pairwise_iff_getElem.2 fun a b ha hb hlt => ?_
  have hfirst := h.ids a _ (List.getElem?_eq_getElem ha)
  have hsecond := h.ids b _ (List.getElem?_eq_getElem hb)
  omega

theorem task_of_id (h : Exact i) {place other : Nat} {task task' : Task}
    (htask : i.tasks[place]? = some task) (htask' : i.tasks[other]? = some task')
    (hid : task.id = task'.id) : place = other ∧ task = task' := by
  have hnumber := h.ids place task htask
  have hnumber' := h.ids other task' htask'
  obtain rfl : place = other := by omega
  exact ⟨rfl, Option.some.inj (htask.symm.trans htask')⟩

theorem ids_eq (h : Exact i) : i.tasks.map Task.id = List.range' 1 i.tasks.length := by
  apply List.ext_getElem?
  intro place
  rw [List.getElem?_map]
  cases htask : i.tasks[place]? with
  | none =>
    have hlength : (List.range' 1 i.tasks.length).length ≤ place := by
      rw [List.length_range']
      exact List.getElem?_eq_none_iff.1 htask
    rw [List.getElem?_eq_none hlength]
    rfl
  | some task =>
    obtain ⟨hplace, -⟩ := List.getElem?_eq_some_iff.1 htask
    have hnumber := h.ids place task htask
    rw [List.getElem?_range' hplace, Option.map_some, hnumber]
    congr 1
    omega

theorem exact_enqueue (h : Exact i) (now : Instant) (query : String) (candidates : List Message)
    (budget : Option Nat)
    (hfew : (i.enqueue now query candidates budget).tasks.length < idLimit) :
    Exact (i.enqueue now query candidates budget) := by
  have hlength : (i.enqueue now query candidates budget).tasks.length = i.tasks.length + 1 := by
    rw [enqueue, List.length_append, List.length_singleton]
  rw [hlength] at hfew
  have hid : (i.lastId + 1) % idLimit = i.tasks.length + 1 := by
    rw [h.last]
    exact Nat.mod_eq_of_lt hfew
  refine ⟨hlength ▸ hid, fun place task htask => ?_, ?_⟩
  · rcases enqueue_cases htask with ⟨rfl, rfl⟩ | hbefore
    · exact hid
    · exact h.ids place task hbefore
  · -- the new id is past all others, so its entry comes last
    have hlast : ∀ e ∈ entriesOf i.tasks, compare (i.tasks.length + 1) e.1 = .gt := by
      intro e he
      obtain ⟨task, htask, -, rfl⟩ := mem_entriesOf.1 he
      obtain ⟨place, hplace, hfound⟩ := List.mem_iff_getElem.1 htask
      have hnumber := h.ids place task (by rw [List.getElem?_eq_getElem hplace, hfound])
      refine Nat.compare_eq_gt.2 ?_
      omega
    change Keyed.insert _ _ i.registry = entriesOf (i.tasks ++ [_])
    rw [h.registry, hid, Keyed.insert_last hlast, entriesOf, entriesOf, List.filter_append,
      List.map_append]
    rfl

theorem exact_update (h : Exact i) {place : Nat} {change : Task → Task}
    (hchange : ∀ task, i.tasks[place]? = some task →
      (change task).id = task.id ∧ (change task).work.signedOff = task.work.signedOff) :
    Exact (i.update place change) := by
  refine ⟨?_, fun other task htask => ?_, ?_⟩
  · rw [update, List.length_modify]
    exact h.last
  · rcases update_cases htask with ⟨before, rfl, hbefore, rfl⟩ | ⟨-, hbefore⟩
    · rw [(hchange before hbefore).1]
      exact h.ids other before hbefore
    · exact h.ids other task hbefore
  · rw [update, entriesOf_modify hchange]
    exact h.registry

theorem exact_work (h : Exact i) (source : Source) (place : Nat) :
    Exact (i.work source place) := by
  cases htask : i.tasks[place]? with
  | none =>
    rw [work_none source htask]
    exact h
  | some task =>
    rw [work_some source htask]
    rcases step_registry i.toShared source task with ⟨outcome, hleaving, hstep⟩ | ⟨hsame, hregistry⟩
    · -- the task signs off
      have hregistered : task.work.signedOff = false := by rw [hleaving]; rfl
      have hsignOff : entriesOf (i.tasks.modify place fun task' =>
          { task' with work := .sending outcome }) = Keyed.erase task.id (entriesOf i.tasks) :=
        entriesOf_signOff (ascends_of_exact h) htask hregistered rfl
      rw [hstep]
      refine ⟨?_, fun other later hlater => ?_, ?_⟩
      · rw [update, List.length_modify]
        exact h.last
      · rcases update_cases hlater with ⟨before, rfl, hbefore, rfl⟩ | ⟨-, hbefore⟩
        · exact h.ids other before hbefore
        · exact h.ids other later hbefore
      · rw [update, hsignOff, ← h.registry]
    · -- it is in the registry after the step if and only if it was before
      have hupdate : Exact (i.update place fun task' =>
          { task' with work := (i.step source task).1 }) := by
        refine exact_update h fun task' htask' => ?_
        obtain rfl : task = task' := Option.some.inj (htask.symm.trans htask')
        exact ⟨rfl, hsame⟩
      refine ⟨hupdate.last, hupdate.ids, ?_⟩
      exact hregistry.trans hupdate.registry

theorem exact_cancelAt (h : Exact i) (place : Nat) : Exact (i.cancelAt place) :=
  exact_update h fun _ _ => ⟨rfl, rfl⟩

theorem length_work (i : Interface) (source : Source) (place : Nat) :
    (i.work source place).tasks.length = i.tasks.length := by
  cases htask : i.tasks[place]? with
  | none => rw [work_none source htask]
  | some task =>
    rw [work_some source htask, update]
    exact List.length_modify _ _ _

theorem length_cancelAt (i : Interface) (place : Nat) :
    (i.cancelAt place).tasks.length = i.tasks.length := List.length_modify _ _ _

theorem exact_of_reached {source : Source} {engine : Engine} {gates : Gates} {h : History}
    (hreached : Reached source { engine, gates } h)
    (hfew : h.interface.tasks.length < idLimit) : Exact h.interface := by
  -- there were never more tasks than now, so their ids had not come round before either
  revert hfew
  refine reached_induction (P := fun i => i.tasks.length < idLimit → Exact i) ?_ ?_ ?_ ?_ ?_ hreached
  · intro _
    refine ⟨rfl, fun place task htask => ?_, rfl⟩
    cases htask
  · intro i r ih hfew
    have hlength : i.tasks.length ≤
        (i.enqueue r.now r.query r.candidates r.budget).tasks.length := by
      rw [enqueue, List.length_append]
      omega
    exact exact_enqueue (ih (Nat.lt_of_le_of_lt hlength hfew)) r.now r.query r.candidates r.budget
      hfew
  · intro i place ih hfew
    rw [length_work] at hfew
    exact exact_work (ih hfew) source place
  · intro i place ih hfew
    rw [length_cancelAt] at hfew
    exact exact_cancelAt (ih hfew) place
  · intro i gates ih hfew
    obtain ⟨hlast, hids, hregistry⟩ := ih hfew
    exact ⟨hlast, hids, hregistry⟩

theorem find?_registry (h : Exact i) {id place : Nat} :
    Keyed.find? id i.registry = some place ↔
      ∃ task, i.tasks[place]? = some task ∧ task.id = id ∧ task.work.signedOff = false := by
  rw [h.registry]
  constructor
  · intro hfind
    obtain ⟨task, hmem, hregistered, heq⟩ := mem_entriesOf.1 (Keyed.mem_of_find? hfind)
    obtain ⟨rfl, rfl⟩ := Prod.mk.inj heq
    obtain ⟨place, hplace, hfound⟩ := List.mem_iff_getElem.1 hmem
    have htask : i.tasks[place]? = some task := by rw [List.getElem?_eq_getElem hplace, hfound]
    have hnumber := h.ids place task htask
    rw [hnumber, Nat.add_sub_cancel]
    exact ⟨task, htask, hnumber, hregistered⟩
  · rintro ⟨task, htask, rfl, hregistered⟩
    have hnumber := h.ids place task htask
    refine Keyed.find?_of_mem (sorted_entriesOf (ascends_of_exact h)) (mem_entriesOf.2 ?_)
    refine ⟨task, List.mem_of_getElem? htask, hregistered, ?_⟩
    rw [hnumber, Nat.add_sub_cancel]

/-- The query of an id runs. -/
def Runs (id : Nat) (task : Task) : Prop := task.id = id ∧ task.work.signedOff = false

instance (id : Nat) (task : Task) : Decidable (Runs id task) := by
  unfold Runs; infer_instance

/-- A task as a cancellation of an id leaves it. -/
def afterCancel (id : Nat) (task : Task) : Task :=
  if Runs id task then { task with cancelled := true } else task

/-- A cancellation by id sets the token of the running query of the id, if there is one, and does
nothing else. -/
theorem cancel_eq (h : Exact i) (id : Nat) :
    i.cancel id = (decide (∃ task ∈ i.tasks, Runs id task),
      { i with tasks := i.tasks.map (afterCancel id) }) := by
  rw [cancel]
  cases hfind : Keyed.find? id i.registry with
  | none =>
    -- no task is changed
    have hnone : ∀ task ∈ i.tasks, ¬ Runs id task := by
      intro task hmem hruns
      obtain ⟨place, hplace, hfound⟩ := List.mem_iff_getElem.1 hmem
      have hsome := (find?_registry h).2
        ⟨task, (List.getElem?_eq_getElem hplace).trans (congrArg some hfound), hruns⟩
      rw [hfind] at hsome
      cases hsome
    have hsame : i.tasks.map (afterCancel id) = i.tasks := by
      have hid : i.tasks.map (afterCancel id) = i.tasks.map fun task => task :=
        List.map_congr_left fun task hmem => if_neg (hnone task hmem)
      exact hid.trans (List.map_id' _)
    have hnot : ¬ ∃ task ∈ i.tasks, Runs id task := by
      rintro ⟨task, hmem, hruns⟩
      exact hnone task hmem hruns
    rw [hsame, decide_eq_false hnot]
  | some place =>
    -- the one task of the id is changed, and no other
    obtain ⟨task, htask, hruns⟩ := (find?_registry h).1 hfind
    have hmodify : i.tasks.modify place (fun task => { task with cancelled := true }) =
        i.tasks.map (afterCancel id) := by
      apply List.ext_getElem?
      intro other
      rw [List.getElem?_map]
      by_cases hother : place = other
      · subst hother
        rw [List.getElem?_modify_eq, htask]
        exact congrArg some (if_pos hruns).symm
      · rw [List.getElem?_modify_ne _ _ hother]
        cases hfound : i.tasks[other]? with
        | none => rfl
        | some task' =>
          have hne : ¬ Runs id task' := by
            intro hruns'
            exact hother (task_of_id h htask hfound (hruns.1.trans hruns'.1.symm)).1
          exact congrArg some (if_neg hne).symm
    have hmem : ∃ task ∈ i.tasks, Runs id task := ⟨task, List.mem_of_getElem? htask, hruns⟩
    rw [decide_eq_true hmem, ← hmodify]
    rfl

/-- The id of a task finds it as long as it is registered. -/
theorem cancel_id (h : Exact i) {place : Nat} {task : Task} (htask : i.tasks[place]? = some task) :
    (i.cancel task.id).1 = !task.work.signedOff := by
  rw [cancel_eq h]
  cases hsigned : task.work.signedOff with
  | false => exact decide_eq_true ⟨task, List.mem_of_getElem? htask, rfl, hsigned⟩
  | true =>
    refine decide_eq_false ?_
    rintro ⟨other, hmem, hid, hregistered⟩
    obtain ⟨place', hfound⟩ := List.mem_iff_getElem?.1 hmem
    obtain ⟨-, rfl⟩ := task_of_id h hfound htask hid
    rw [hsigned] at hregistered
    cases hregistered

theorem running_eq (h : Exact i) :
    i.running = (i.tasks.filter fun task => !task.work.signedOff).length := by
  rw [running, h.registry, entriesOf, List.length_map]

theorem start_fst (h : Exact i) (archive : Source) (r : Request)
    (hfew : i.tasks.length + 1 < idLimit) :
    (i.start archive r.now r.query r.candidates r.budget).1 = i.tasks.length + 1 := by
  have hid : (i.lastId + 1) % idLimit = i.tasks.length + 1 := by
    rw [h.last]
    exact Nat.mod_eq_of_lt hfew
  exact hid

theorem handle_eq (h : Exact i) {place : Nat} (hplace : place < i.tasks.length) :
    i.handle (place + 1) = place := by
  have hnumber {other : Nat} (hother : other < i.tasks.length) :
      i.tasks[other].id = other + 1 := h.ids other _ (List.getElem?_eq_getElem hother)
  refine (List.findIdx_eq hplace).2 ⟨decide_eq_true (hnumber hplace), fun other hlt => ?_⟩
  refine decide_eq_false ?_
  rw [hnumber (Nat.lt_trans hlt hplace)]
  omega

end Exactness

/-- The registry of running queries is exact. While fewer than 2 ^ 64 queries have been started,
their ids are the numbers from one on, the next one is handed out by the next start, and the handle
of an id is that of its query; the queries that run are those whose tasks have not signed off; and
a cancellation by id finds the query of the id if and only if it runs, and sets its token and no
other. When a wait has returned anything but a timeout, the query does not run any more; after a
timeout its token is set for as long as it runs. -/
theorem registry_exact {source : Source} {engine : Engine} {gates : Gates} {h : History}
    (hreached : Reached source { engine, gates } h) (hfew : h.requests.length < idLimit) :
    h.interface.tasks.map Task.request = h.requests ∧
    h.interface.tasks.map Task.id = List.range' 1 h.requests.length ∧
    (∀ archive (r : Request), h.requests.length + 1 < idLimit →
      (h.interface.start archive r.now r.query r.candidates r.budget).1 =
        h.requests.length + 1) ∧
    (∀ place < h.requests.length, h.interface.handle (place + 1) = place) ∧
    h.interface.running =
      (h.interface.tasks.filter fun task => !task.work.signedOff).length ∧
    (∀ id, h.interface.cancel id = (decide (∃ task ∈ h.interface.tasks, Runs id task),
      { h.interface with tasks := h.interface.tasks.map (afterCancel id) })) ∧
    ∀ place outcome, (place, outcome) ∈ h.waits →
      ∃ task, h.interface.tasks[place]? = some task ∧
        (outcome ≠ .error .timeout →
          task.work.signedOff = true ∧ (h.interface.cancel task.id).1 = false) ∧
        (outcome = .error .timeout → task.work.signedOff = false →
          task.cancelled = true ∧ (h.interface.cancel task.id).1 = true) := by
  rw [length_requests hreached rfl] at hfew ⊢
  have hexact := exact_of_reached hreached hfew
  refine ⟨requests_of_reached hreached rfl, ids_eq hexact, start_fst hexact,
    fun place => handle_eq hexact, running_eq hexact, cancel_eq hexact,
    fun place outcome hwait => ?_⟩
  obtain ⟨task, htask, hreturned⟩ := accounts_of_reached hreached _ hwait
  refine ⟨task, htask, fun hother => ?_, fun _ hregistered => ?_⟩
  · rcases hreturned with hended | ⟨htimeout, -, -⟩
    · have hsigned : task.work.signedOff = true := by rw [hended]; rfl
      exact ⟨hsigned, by rw [cancel_id hexact htask, hsigned]; rfl⟩
    · exact absurd htimeout hother
  · rcases hreturned with hended | ⟨-, -, hcancelled⟩
    · -- what was handed over came from a task that had signed off
      rw [hended] at hregistered
      cases hregistered
    · exact ⟨hcancelled, by rw [cancel_id hexact htask, hregistered]; rfl⟩

/-- A source that knows of nothing. -/
def silent : Source where
  attr? _ _ := .ok none
  messages _ := .ok []

def idle : Interface where
  engine := { store := { disk := {}, directory := "idx" }, cache := { limit := 256 } }

/-- What is asked for comes to nothing, as there are no candidates. -/
def askNothing (budget : Option Nat) : Request :=
  ⟨.midnight ⟨2024, 1, 1, by decide⟩, "", [], budget⟩

/-- Two queries were started, and the first has ended. -/
def oneEnded : Interface :=
  let first := askNothing none
  let second := askNothing (some 20)
  let started := (idle.enqueue first.now first.query first.candidates first.budget).enqueue
    second.now second.query second.candidates second.budget
  [0, 0, 0, 0, 0].foldl (fun i place => i.work silent place) started

theorem registry_exact_givenUp :
    ∃ h, Reached silent idle h ∧ h.requests.length < idLimit ∧
      h.waits = [(1, .error .timeout), (0, .ok [])] ∧ h.interface.running = 1 ∧
      (h.interface.cancel 1).1 = false ∧ (h.interface.cancel 2).1 = true := by
  have hended : Reached silent idle
      { interface := oneEnded, requests := [askNothing none, askNothing (some 20)] } :=
    reached_works (.enqueue (.enqueue .first (askNothing none)) (askNothing (some 20)))
      [0, 0, 0, 0, 0]
  have hreceived : Reached silent idle
      { interface := oneEnded
        requests := [askNothing none, askNothing (some 20)]
        waits := [(0, .ok [])] } := by
    have hreturned : oneEnded.waitAt 0 = (some (.ok []), oneEnded) := rfl
    refine hended.wait ?_ hreturned
    rintro ⟨outcome, hmem⟩
    cases hmem
  have hreached : Reached silent idle
      { interface := oneEnded.cancelAt 1
        requests := [askNothing none, askNothing (some 20)]
        waits := [(1, .error .timeout), (0, .ok [])] } := by
    have hreturned : oneEnded.waitAt 1 = (some (.error .timeout), oneEnded.cancelAt 1) := rfl
    refine hreceived.wait ?_ hreturned
    rintro ⟨outcome, hmem⟩
    cases (Prod.mk.inj (List.mem_singleton.1 hmem)).1
  have hfew : [askNothing none, askNothing (some 20)].length < idLimit := by decide
  obtain ⟨-, -, -, -, hrunning, hcancel, -⟩ := registry_exact hreached hfew
  refine ⟨_, hreached, hfew, rfl, hrunning.trans rfl, ?_, ?_⟩
  · rw [hcancel]
    rfl
  · rw [hcancel]
    rfl

end Colloquy.Interface
