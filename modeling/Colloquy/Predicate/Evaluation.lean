import Colloquy.Keyword
import Colloquy.Predicate
import Colloquy.Reading

/-!
Operands are read from left to right; `and` and `or` stop at the first child that decides.
-/

namespace Colloquy.Predicate

/-- Where a predicate is evaluated: the message, the number of messages accepted before it and the
time of the selection. -/
structure Scene where
  message : UInt64
  position : UInt64
  now : Instant

def expectBoolean (p : Predicate) : Value → Except TypeMismatch Bool
  | .boolean b => .ok b
  | other => .error (.notABoolean p.text other.kind)

/-- Whether a query value matches a target value; never when one of them is absent. -/
def matchValues (query target : Value) : Except TypeMismatch Bool := do
  match ← query.searchable, ← target.searchable with
  | some q, some t => .ok (Keyword.matchesText q t)
  | _, _ => .ok false

/-- Whether some item of a list equals a value. The search stops at the first that does. -/
def anyEqual (item : Value) : List Value → Except TypeMismatch Bool
  | [] => .ok false
  | candidate :: rest => do
    if ← candidate.looseEq item then .ok true else anyEqual item rest

def containsValue (list item : Value) : Except TypeMismatch Bool :=
  match list with
  | .absent => .ok false
  | .list items => anyEqual item items
  | other => .error (.notAList other.kind)

def compareValues (wanted : Ordering) (a b : Value) : Except TypeMismatch Bool :=
  (a.looseCmp b).map fun order => order == some wanted

def relate (relation : Value → Value → Except TypeMismatch Bool) (a b : Value) : Reading Value :=
  .ofExcept ((relation a b).map Value.boolean)

mutual
def evaluate (scene : Scene) : Predicate → Reading Value
  | always => pure (.boolean true)
  | literal value => pure value
  | position => pure (.number scene.position.toInt64)
  | now => pure (.time scene.now)
  | number => .ofExcept (Value.ofId scene.message)
  | attr name => .attr scene.message name
  | equal a b => do relate Value.looseEq (← evaluate scene a) (← evaluate scene b)
  | keywords a b => do relate matchValues (← evaluate scene a) (← evaluate scene b)
  | greater a b => do relate (compareValues .gt) (← evaluate scene a) (← evaluate scene b)
  | less a b => do relate (compareValues .lt) (← evaluate scene a) (← evaluate scene b)
  | contains a b => do relate containsValue (← evaluate scene a) (← evaluate scene b)
  | and children => do return .boolean (← allTrue scene children)
  | or children => do return .boolean (← anyTrue scene children)
  | not child => do
    let value ← evaluate scene child
    let b ← Reading.ofExcept (expectBoolean child value)
    return .boolean !b
  | limit n => pure (.boolean (decide (scene.position < n)))
def allTrue (scene : Scene) : List Predicate → Reading Bool
  | [] => pure true
  | child :: rest => do
    let value ← evaluate scene child
    let b ← Reading.ofExcept (expectBoolean child value)
    -- the children after one that is false are not evaluated, so they cannot fail
    if b then allTrue scene rest else pure false
def anyTrue (scene : Scene) : List Predicate → Reading Bool
  | [] => pure false
  | child :: rest => do
    let value ← evaluate scene child
    let b ← Reading.ofExcept (expectBoolean child value)
    if b then pure true else anyTrue scene rest
end

/-- The truth of a predicate that has to yield a boolean. -/
def truth (scene : Scene) (p : Predicate) : Reading Bool := do
  let value ← evaluate scene p
  Reading.ofExcept (expectBoolean p value)

end Colloquy.Predicate
