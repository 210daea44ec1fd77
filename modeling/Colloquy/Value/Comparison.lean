import Colloquy.Value

/-!
Values of different kinds are brought to a common representation where there is one: numbers and
times are written in texts, and a time is a number of milliseconds.
-/

namespace Colloquy

inductive TypeMismatch where
  | equalityUndefined (a b : Kind)
  | orderingUndefined (a b : Kind)
  | textOrdering
  | notANumber (text : String)
  | notATime (text : String)
  | notText (kind : Kind)
  | notAList (kind : Kind)
  | notABoolean (predicate : String) (kind : Kind)
  | idTooLarge (id : UInt64)
deriving DecidableEq

def TypeMismatch.message : TypeMismatch → String
  | equalityUndefined a b => s!"equality not defined between {a.name} and {b.name}"
  | orderingUndefined a b => s!"ordering not defined between {a.name} and {b.name}"
  | textOrdering => "Ordering comparison not allowed between text values"
  | notANumber text => s!"'{text}' cannot be compared as a number"
  | notATime text => s!"'{text}' cannot be compared as a time"
  | notText kind => s!"keyword matching needs text, got {kind.name}"
  | notAList kind => s!"contains needs a list, got {kind.name}"
  | notABoolean predicate kind => s!"expected a boolean from {predicate}, got {kind.name}"
  | idTooLarge id => s!"id {id} does not fit a number"

namespace Value

def ofId (id : UInt64) : Except TypeMismatch Value :=
  match Decimal.toInt64? id.toNat with
  | some n => .ok (number n)
  | none => .error (.idTooLarge id)

def spellsNumber (n : Int64) (t : String) : Bool :=
  Decimal.ofInt n.toInt == Text.trim t.toList

def spellsTime (instant : Instant) (t : String) : Bool :=
  match Timestamp.read t.toList with
  | some parsed => decide (parsed = instant)
  | none => false

def spellsBoolean (b : Bool) (t : String) : Bool :=
  (boolean b).display == Text.trim t.toList

def isMillis (instant : Instant) (n : Int64) : Bool := instant.millis == n.toInt

mutual
/-- Loose equality. Lists are compared item by item up to the first that differs. -/
def looseEq : Value → Value → Except TypeMismatch Bool
  -- what is absent equals nothing, not even what is absent too
  | absent, _ => .ok false
  | _, absent => .ok false
  | boolean a, boolean b => .ok (a == b)
  | number a, number b => .ok (a == b)
  | text a, text b => .ok (a == b)
  | time a, time b => .ok (decide (a = b))
  -- the text has to be the number as it is displayed; other spellings differ
  | number n, text t => .ok (spellsNumber n t)
  | text t, number n => .ok (spellsNumber n t)
  | time a, text t => .ok (spellsTime a t)
  | text t, time a => .ok (spellsTime a t)
  | time a, number n => .ok (isMillis a n)
  | number n, time a => .ok (isMillis a n)
  | boolean b, text t => .ok (spellsBoolean b t)
  | text t, boolean b => .ok (spellsBoolean b t)
  | list as, list bs => if as.length = bs.length then looseEqAll as bs else .ok false
  | a, b => .error (.equalityUndefined a.kind b.kind)
def looseEqAll : List Value → List Value → Except TypeMismatch Bool
  | a :: as, b :: bs =>
    match looseEq a b with
    | .ok true => looseEqAll as bs
    | .ok false => .ok false
    | .error cause => .error cause
  | _, _ => .ok true
end

def readNumber (t : String) : Except TypeMismatch Int :=
  match Decimal.readInt64 (Text.trim t.toList) with
  | some n => .ok n.toInt
  | none => .error (.notANumber t)

def readTime (t : String) : Except TypeMismatch Instant :=
  match Timestamp.read t.toList with
  | some instant => .ok instant
  | none => .error (.notATime t)

/-- Loose order, where there is one; `none` when a side is absent. -/
def looseCmp : Value → Value → Except TypeMismatch (Option Ordering)
  | absent, _ => .ok none
  | _, absent => .ok none
  | number a, number b => .ok (some (compare a.toInt b.toInt))
  | time a, time b => .ok (some (a.compare b))
  | time a, number b => .ok (some (compare a.millis b.toInt))
  | number a, time b => .ok (some (compare a.toInt b.millis))
  -- any spelling that can be read will do here
  | number a, text t => (readNumber t).map fun b => some (compare a.toInt b)
  | text t, number b => (readNumber t).map fun a => some (compare a b.toInt)
  | time a, text t => (readTime t).map fun b => some (a.compare b)
  | text t, time b => (readTime t).map fun a => some (a.compare b)
  | text _, text _ => .error .textOrdering
  | a, b => .error (.orderingUndefined a.kind b.kind)

/-- The text in which keywords are looked for; `none` for an absent value. -/
def searchable : Value → Except TypeMismatch (Option (List Char))
  | absent => .ok none
  | text t => .ok (some t.toList)
  | number n => .ok (some (number n).display)
  | time t => .ok (some (time t).display)
  | other => .error (.notText other.kind)

end Value

end Colloquy
