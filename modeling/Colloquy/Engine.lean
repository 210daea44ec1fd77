import Colloquy.Predicate.Evaluation
import Colloquy.Store

/-!
Running queries over candidates, each of which is evaluated with the number of those accepted before
it as its position.
-/

namespace Colloquy

/-- The tree of a query and a number that tells it from the trees of all other readings. -/
structure Parsed where
  tree : Predicate
  serial : Nat
deriving DecidableEq

structure ParseCache where
  limit : Nat
  entries : List (String × Parsed) := []
  next : Nat := 0

namespace ParseCache

def find? (c : ParseCache) (query : String) : Option Parsed :=
  (c.entries.find? fun entry => entry.1 = query).map Prod.snd

/-- Keeps a tree, in place of one that was kept for the same text meanwhile; a full cache starts
over. -/
def insert (c : ParseCache) (query : String) (tree : Predicate) : ParseCache :=
  -- with a limit of zero nothing is kept, and the numbers go on
  let kept := if c.limit ≤ c.entries.length then [] else
    c.entries.filter fun entry => entry.1 ≠ query
  { c with
    entries := if c.limit = 0 then kept else (query, ⟨tree, c.next⟩) :: kept
    next := c.next + 1 }

def parse (c : ParseCache) (query : String) : Except Error Parsed × ParseCache :=
  match c.find? query with
  | some parsed => (.ok parsed, c)
  | none =>
    match Query.parse query with
    -- a failure is not kept, so the text is read again the next time
    | .error failure => (.error (.query failure), c)
    | .ok tree => (.ok ⟨tree, c.next⟩, c.insert query tree)

end ParseCache

namespace Store
variable {α : Type}

/-- Goes on selecting after `seen` candidates, of which those in `accepted` passed, latest first.
The token is looked at before each candidate: it tells, for the number of candidates evaluated so
far, whether the selection has been cancelled. -/
def selectFrom (source : Source) (now : Instant) (p : Predicate) (number : α → UInt64)
    (token : Nat → Bool) (s : Store) (seen : Nat) (accepted : List α) :
    List α → Except Error (List α) × Store
  | [] => (.ok accepted.reverse, s)
  | candidate :: rest =>
    -- looked at before the candidate, so the last one cannot be cancelled after it was evaluated
    if token seen then (.error .cancelled, s)
    else
      let scene : Predicate.Scene := ⟨number candidate, .ofNat accepted.length, now⟩
      match s.run source (p.truth scene) with
      | (.error e, s) => (.error e, s)
      | (.ok true, s) =>
        selectFrom source now p number token s (seen + 1) (candidate :: accepted) rest
      | (.ok false, s) => selectFrom source now p number token s (seen + 1) accepted rest

/-- The candidates that a predicate accepts, in their order, while the token lets them be taken. -/
def selectWhile (s : Store) (source : Source) (now : Instant) (token : Nat → Bool) (p : Predicate)
    (number : α → UInt64) (candidates : List α) : Except Error (List α) × Store :=
  selectFrom source now p number token s 0 [] candidates

def select (s : Store) (source : Source) (now : Instant) (p : Predicate) (number : α → UInt64)
    (candidates : List α) : Except Error (List α) × Store :=
  s.selectWhile source now (fun _ => false) p number candidates

def indexAttributes (s : Store) (m : Message) : List String → Except Error Unit × Store
  | [] => (.ok (), s)
  | name :: rest =>
    match m.attr? name with
    | .error cause => (.error (.mismatch cause), s)
    | .ok none => indexAttributes s m rest
    | .ok (some value) =>
      match s.put name m.number value with
      -- the attributes that were put before stay
      | (.error e, s) => (.error e, s)
      | (.ok _, s) => indexAttributes s m rest

def indexMessage (s : Store) (m : Message) : Except Error Unit × Store :=
  s.indexAttributes m Message.indexed

end Store

structure Engine where
  store : Store
  cache : ParseCache

namespace Engine
variable {α : Type}

def parse (e : Engine) (query : String) : Except Error Parsed × Engine :=
  let (outcome, cache) := e.cache.parse query
  (outcome, { e with cache })

def selectWhile (e : Engine) (source : Source) (now : Instant) (token : Nat → Bool)
    (query : String) (number : α → UInt64) (candidates : List α) :
    Except Error (List α) × Engine :=
  match e.parse query with
  | (.error cause, e) => (.error cause, e)
  | (.ok parsed, e) =>
    let (outcome, store) := e.store.selectWhile source now token parsed.tree number candidates
    (outcome, { e with store })

def select (e : Engine) (source : Source) (now : Instant) (query : String) (number : α → UInt64)
    (candidates : List α) : Except Error (List α) × Engine :=
  e.selectWhile source now (fun _ => false) query number candidates

def messages (e : Engine) (source : Source) (now : Instant) (bout : UInt64) (query : String) :
    Except Error (List Message) × Engine :=
  -- the query comes before the bout: only one that can be read asks the source
  match e.parse query with
  | (.error cause, e) => (.error cause, e)
  | (.ok parsed, e) =>
    match source.messages bout with
    | .error cause => (.error cause, e)
    | .ok candidates =>
      let (outcome, store) := e.store.select source now parsed.tree Message.number candidates
      (outcome, { e with store })

end Engine

end Colloquy
