import Colloquy.Keyed
import Colloquy.Source

namespace Colloquy.Source

structure Memory where
  posted : List (UInt64 × Message) := []
  participants : List (UInt64 × List String) := []

/-- Puts a name in its place in an ascending list, unless it is there. -/
def insertName (name : String) : List String → List String
  | [] => [name]
  | n :: rest =>
    match compare name n with
    | .lt => name :: n :: rest
    | .eq => n :: rest
    | .gt => n :: insertName name rest

namespace Memory

/-- Posts a message in place of an earlier one of its number. -/
def post (s : Memory) (m : Message) : Memory :=
  { s with posted := Keyed.insert m.number m s.posted }

def participantsOf (s : Memory) (bout : UInt64) : List String :=
  (Keyed.find? bout s.participants).getD []

def join (s : Memory) (bout : UInt64) (identity : String) : Memory :=
  let names := insertName identity (s.participantsOf bout)
  { s with participants := Keyed.insert bout names s.participants }

def attr? (s : Memory) (number : UInt64) (name : String) : Except Error (Option Value) :=
  match Keyed.find? number s.posted with
  | none => .ok none
  | some m =>
    if name = "participants" then .ok (some (.list ((s.participantsOf m.bout).map .text)))
    else (m.attr? name).mapError .mismatch

def messages (s : Memory) (bout : UInt64) : List Message :=
  Message.sortNewestFirst ((s.posted.map Prod.snd).filter fun m => m.bout = bout)

def toSource (s : Memory) : Source where
  attr? := s.attr?
  messages bout := .ok (s.messages bout)

end Memory

end Colloquy.Source
