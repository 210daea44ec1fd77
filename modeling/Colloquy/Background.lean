import Colloquy.Engine
import Colloquy.Source.Gates

/-!
Queries that run in the background. A task takes small steps, in each of which it touches what all
tasks share once, so the steps of several tasks can come in any order.
-/

namespace Colloquy

/-- A candidate that is evaluated, between those that were accepted, latest first, and those that
are left. -/
structure Trial where
  tree : Predicate
  accepted : List Message
  candidate : Message
  rest : List Message

structure Held where
  message : UInt64
  name : String
  next : Value → Reading Bool

def Held.reading (held : Held) : Reading Bool := .read held.message held.name held.next

inductive Work where
  | parse
  /-- The query was parsed, and its tree is to be kept. -/
  | keep (tree : Predicate)
  /-- The token is to be looked at. The accepted messages are latest first. -/
  | select (tree : Predicate) (accepted left : List Message)
  | evaluate (trial : Trial) (reading : Reading Bool)
  /-- No index holds the attribute, so the source is to be asked. -/
  | ask (trial : Trial) (held : Held)
  | warm (trial : Trial) (held : Held) (value : Value)
  /-- The task has its outcome and is to be taken out of the registry. -/
  | leaving (outcome : Except Error (List Message))
  | sending (outcome : Except Error (List Message))
  | ended (outcome : Except Error (List Message))

structure Task where
  id : Nat
  query : String
  candidates : List Message
  now : Instant
  /-- How many milliseconds its caller will wait; without a limit if there is none. -/
  budget : Option Nat
  cancelled : Bool := false
  work : Work := .parse

namespace Work

/-- The task is no longer in the registry. -/
def signedOff : Work → Bool
  | sending _ | ended _ => true
  | _ => false

def held? : Work → Option Held
  | ask _ held => some held
  | _ => none

/-- What goes down with every step: first what a query has to go through, then the candidates that
are left, then the evaluation of one of them, attribute by attribute. -/
def rank : Work → Nat × Nat × Reading Bool × Nat
  | parse => (5, 0, .done (.ok false), 0)
  | keep _ => (4, 0, .done (.ok false), 0)
  | select _ _ left => (3, 2 * left.length + 1, .done (.ok false), 0)
  | evaluate trial reading => (3, 2 * trial.rest.length + 2, reading, 2)
  | ask trial held => (3, 2 * trial.rest.length + 2, held.reading, 1)
  | warm trial held _ => (3, 2 * trial.rest.length + 2, held.reading, 0)
  | leaving _ => (2, 0, .done (.ok false), 0)
  | sending _ => (1, 0, .done (.ok false), 0)
  | ended _ => (0, 0, .done (.ok false), 0)

def Before (later earlier : Work) : Prop :=
  Prod.Lex (· < ·) (Prod.Lex (· < ·) (Prod.Lex Reading.Follows (· < ·))) later.rank earlier.rank

instance : WellFoundedRelation Work where
  rel := Before
  wf := InvImage.wf rank (Prod.lex Nat.lt_wfRel (Prod.lex Nat.lt_wfRel
    (Prod.lex ⟨_, Reading.follows_wf⟩ Nat.lt_wfRel))).wf

end Work

structure Shared where
  engine : Engine
  gates : Gates := Gates.closed
  /-- The places of the running queries among all tasks, by id. -/
  registry : List (Nat × Nat) := []

namespace Shared

def withStore (s : Shared) (store : Store) : Shared := { s with engine := { s.engine with store } }

def step (s : Shared) (source : Source) (task : Task) : Work × Shared :=
  match task.work with
  | .parse =>
    match s.engine.cache.find? task.query with
    | some parsed => (.select parsed.tree [] task.candidates, s)
    | none =>
      match Query.parse task.query with
      | .error failure => (.leaving (.error (.query failure)), s)
      | .ok tree => (.keep tree, s)
  | .keep tree =>
    let cache := s.engine.cache.insert task.query tree
    (.select tree [] task.candidates, { s with engine := { s.engine with cache } })
  | .select _ accepted [] => (.leaving (.ok accepted.reverse), s)
  | .select tree accepted (candidate :: rest) =>
    -- looked at before the candidate, so the last one cannot be cancelled after it was evaluated
    if task.cancelled then (.leaving (.error .cancelled), s)
    else
      let scene : Predicate.Scene := ⟨candidate.number, .ofNat accepted.length, task.now⟩
      (.evaluate ⟨tree, accepted, candidate, rest⟩ (tree.truth scene), s)
  | .evaluate _ (.done (.error cause)) => (.leaving (.error (.mismatch cause)), s)
  | .evaluate trial (.done (.ok true)) =>
    (.select trial.tree (trial.candidate :: trial.accepted) trial.rest, s)
  | .evaluate trial (.done (.ok false)) => (.select trial.tree trial.accepted trial.rest, s)
  | .evaluate trial (.read message name next) =>
    match s.engine.store.get? name message with
    | (.error e, store) => (.leaving (.error e), s.withStore store)
    | (.ok (some value), store) => (.evaluate trial (next value), s.withStore store)
    | (.ok none, store) => (.ask trial ⟨message, name, next⟩, s.withStore store)
  | .ask trial held =>
    match s.gates.grant? held.name with
    -- held back: the question is asked again with the next step
    | none => (.ask trial held, s)
    | some gates =>
      match source.attr? held.message held.name with
      | .error e => (.leaving (.error e), { s with gates })
      | .ok none => (.evaluate trial (held.next .absent), { s with gates })
      | .ok (some value) => (.warm trial held value, { s with gates })
  | .warm trial held value =>
    match s.engine.store.put held.name held.message value with
    | (.error e, store) => (.leaving (.error e), s.withStore store)
    | (.ok _, store) => (.evaluate trial (held.next value), s.withStore store)
  -- a task signs off before its caller can have the outcome
  | .leaving outcome => (.sending outcome, { s with registry := Keyed.erase task.id s.registry })
  | .sending outcome => (.ended outcome, s)
  | .ended outcome => (.ended outcome, s)

/-- The task has ended, or a gate holds back what it waits for. -/
def rests (s : Shared) : Work → Bool
  | .ended _ => true
  | .ask _ held => (s.gates.grant? held.name).isNone
  | _ => false

/-- A task that does not rest gets on with every step. -/
theorem step_before {s : Shared} {source : Source} {task : Task}
    (h : s.rests task.work = false) : (s.step source task).1.Before task.work := by
  have hphase {later earlier : Nat} {l m : Nat × Reading Bool × Nat} (hlt : later < earlier) :
      Prod.Lex (· < ·) (Prod.Lex (· < ·) (Prod.Lex Reading.Follows (· < ·)))
        (later, l) (earlier, m) := .left _ _ hlt
  have hleaving (outcome : Except Error (List Message)) {m : Nat × Reading Bool × Nat} :
      Prod.Lex (· < ·) (Prod.Lex (· < ·) (Prod.Lex Reading.Follows (· < ·)))
        (Work.leaving outcome).rank (3, m) := hphase (by decide)
  have hvalue (left : Nat) (held : Held) (value : Value) (stage : Nat) :
      Prod.Lex (· < ·) (Prod.Lex (· < ·) (Prod.Lex Reading.Follows (· < ·)))
        (3, left, held.next value, 2) (3, left, held.reading, stage) :=
    .right _ (.right _ (.left _ _ (.next held.message held.name held.next value)))
  unfold step Work.Before
  cases hwork : task.work with
  | parse =>
    simp only
    split
    · exact hphase (by decide)
    · split
      · exact hphase (by decide)
      · exact hphase (by decide)
  | keep tree => exact hphase (by decide)
  | select tree accepted left =>
    cases left with
    | nil => exact hleaving _
    | cons candidate rest =>
      have hfewer : 2 * rest.length + 2 < 2 * (candidate :: rest).length + 1 := by
        rw [List.length_cons]
        omega
      simp only
      split
      · exact hleaving _
      · exact .right _ (.left _ _ hfewer)
  | evaluate trial reading =>
    cases reading with
    | done outcome =>
      have hfewer : 2 * trial.rest.length + 1 < 2 * trial.rest.length + 2 := by omega
      rcases outcome with cause | _ | _
      · exact hleaving _
      · exact .right _ (.left _ _ hfewer)
      · exact .right _ (.left _ _ hfewer)
    | read message name next =>
      simp only
      rcases s.engine.store.get? name message with ⟨e | ⟨_ | value⟩, store⟩
      · exact hleaving _
      · exact .right _ (.right _ (.right _ (by decide)))
      · exact hvalue _ ⟨message, name, next⟩ value 2
  | ask trial held =>
    rw [hwork, rests] at h
    simp only
    cases hgrant : s.gates.grant? held.name with
    | none =>
      rw [hgrant] at h
      cases h
    | some gates =>
      simp only
      rcases source.attr? held.message held.name with e | _ | value
      · exact hleaving _
      · exact hvalue _ held .absent 1
      · exact .right _ (.right _ (.right _ (by decide)))
  | warm trial held value =>
    simp only
    rcases s.engine.store.put held.name held.message value with ⟨e | _, store⟩
    · exact hleaving _
    · exact hvalue _ held value 0
  | leaving outcome => exact hphase (by decide)
  | sending outcome => exact hphase (by decide)
  | ended outcome =>
    rw [hwork] at h
    cases h

def settle (s : Shared) (source : Source) (task : Task) : Work × Shared :=
  if _ : s.rests task.work then (task.work, s)
  else
    let next := s.step source task
    settle next.2 source { task with work := next.1 }
termination_by task.work
decreasing_by
  rename_i h
  exact step_before (Bool.not_eq_true _ ▸ h)

end Shared

/-- The queries that run over one engine. -/
structure Interface extends Shared where
  lastId : Nat := 0
  /-- All tasks in the order in which they were started. The place of a task is the handle of its
  query. -/
  tasks : List Task := []

namespace Interface

def idLimit : Nat := 18446744073709551616

/-- Starts a query under the next id: its task takes its place and is registered. -/
def enqueue (i : Interface) (now : Instant) (query : String) (candidates : List Message)
    (budget : Option Nat) : Interface :=
  -- ids come round after the last word, places do not
  let id := (i.lastId + 1) % idLimit
  { i with
    lastId := id
    registry := Keyed.insert id i.tasks.length i.registry
    tasks := i.tasks ++ [{ id, query, candidates, now, budget }] }

def update (i : Interface) (place : Nat) (change : Task → Task) : Interface :=
  { i with tasks := i.tasks.modify place change }

def work (i : Interface) (source : Source) (place : Nat) : Interface :=
  match i.tasks[place]? with
  | none => i
  | some task =>
    let (work, shared) := i.step source task
    { i.update place (fun task => { task with work }) with toShared := shared }

def settleTask (i : Interface) (source : Source) (place : Nat) : Interface :=
  match i.tasks[place]? with
  | none => i
  | some task =>
    let (work, shared) := i.toShared.settle source task
    { i.update place (fun task => { task with work }) with toShared := shared }

def settle (i : Interface) (source : Source) : Interface :=
  (List.range i.tasks.length).foldl (fun i place => i.settleTask source place) i

def running (i : Interface) : Nat := i.registry.length

def cancelAt (i : Interface) (place : Nat) : Interface :=
  i.update place fun task => { task with cancelled := true }

/-- Cancels the running query of an id and tells whether there is one. -/
def cancel (i : Interface) (id : Nat) : Bool × Interface :=
  match Keyed.find? id i.registry with
  | none => (false, i)
  | some place => (true, i.cancelAt place)

/-- The outcome of a query for its caller. A query that has not ended when its budget is spent is
cancelled; one without a budget has no outcome before it ends. -/
def waitAt (i : Interface) (place : Nat) : Option (Except Error (List Message)) × Interface :=
  match i.tasks[place]? with
  | none => (none, i)
  | some task =>
    match task.work, task.budget with
    | .ended outcome, _ => (some outcome, i)
    -- the task goes on until it looks at its token, and is registered until then
    | _, some _ => (some (.error .timeout), i.cancelAt place)
    | _, none => (none, i)

/-! What a session does. It goes by ids, puts gates in front of its source, and lets tasks work only
when it says so. -/

def start (i : Interface) (source : Source) (now : Instant) (query : String)
    (candidates : List Message) (budget : Option Nat) : Nat × Interface :=
  let started := i.enqueue now query candidates budget
  (started.lastId, started.settleTask (Gates.inFrontOf source) i.tasks.length)

/-- The message for which some task waits at a gate. -/
def heldAt (i : Interface) (gate : String) : Option UInt64 :=
  i.tasks.findSome? fun task =>
    task.work.held?.bind fun held => if held.name = gate then some held.message else none

def setGate (i : Interface) (gate : String) (permits : Permits) : Interface :=
  { i with gates := i.gates.set gate permits }

def permit (i : Interface) (source : Source) (gate : String) (permits : Permits) : Interface :=
  (i.setGate gate permits).settle (Gates.inFrontOf source)

def handle (i : Interface) (id : Nat) : Nat := i.tasks.findIdx fun task => task.id = id

/-- Sets the token of the query of an id, whether it runs or not. -/
def cancelTask (i : Interface) (id : Nat) : Interface := i.cancelAt (i.handle id)

def wait (i : Interface) (id : Nat) : Option (Except Error (List Message)) × Interface :=
  i.waitAt (i.handle id)

/-- Lets every query end: all gates are opened for it and closed again. -/
def finish (i : Interface) (source : Source) : Interface :=
  { settle { i with gates := Gates.opened } (Gates.inFrontOf source) with gates := Gates.closed }

end Interface

end Colloquy
