import Colloquy.Source

/-!
Gates hold back answers of a source. An attribute whose name begins with `gate` is the number of the
message, once its gate has a permit, which the answer uses up.
-/

namespace Colloquy

inductive Permits where
  | count (n : Nat)
  | unlimited
deriving DecidableEq

structure Gates where
  permits : List (String × Permits) := []
  others : Permits := .count 0

namespace Gates

def isGate (name : String) : Bool := "gate".toList.isPrefixOf name.toList

def closed : Gates := {}

/-- Gates that let everything through. -/
def opened : Gates := { others := .unlimited }

def permitsOf (g : Gates) (gate : String) : Permits :=
  match g.permits.find? fun entry => entry.1 = gate with
  | some entry => entry.2
  | none => g.others

def set (g : Gates) (gate : String) (permits : Permits) : Gates :=
  { g with permits := (gate, permits) :: g.permits.filter fun entry => entry.1 ≠ gate }

def pass? (g : Gates) (gate : String) : Option Gates :=
  match g.permitsOf gate with
  | .unlimited => some g
  | .count 0 => none
  | .count (n + 1) => some (g.set gate (.count n))

/-- The gates after as many answers have passed a gate as it had permits for. -/
def spend (g : Gates) (gate : String) (answers : Nat) : Gates :=
  match g.permitsOf gate with
  | .unlimited => g
  | .count n => g.set gate (.count (n - answers))

def answer (message : UInt64) : Value := .number message.toInt64

/-- The gates after the answer for an attribute has passed; nothing as long as a gate holds it
back. -/
def grant? (g : Gates) (name : String) : Option Gates :=
  if isGate name then g.pass? name else some g

/-- A source with gates in front of it that all stand open. -/
def inFrontOf (source : Source) : Source where
  attr? message name :=
    if isGate name then .ok (some (answer message)) else source.attr? message name
  messages := source.messages

end Gates

end Colloquy
