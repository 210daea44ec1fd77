import Colloquy.Value.Comparison

/-!
Messages belong to bouts, which are conversations that people take part in.
-/

namespace Colloquy

structure Message where
  number : UInt64
  bout : UInt64
  author : String
  text : String
  date : Instant
deriving DecidableEq

namespace Message

/-- The attributes that are put into their indexes when a message is posted. -/
def indexed : List String := ["bout", "author", "text", "date"]

def attr? (m : Message) (name : String) : Except TypeMismatch (Option Value) :=
  if name = "number" then (Value.ofId m.number).map some
  else if name = "bout" then (Value.ofId m.bout).map some
  else if name = "author" then .ok (some (.text m.author))
  else if name = "text" then .ok (some (.text m.text))
  else if name = "date" then .ok (some (.time m.date))
  else .ok none

/-- Later messages come first; of two of one instant, that with the higher number. -/
def newestFirst (a b : Message) : Bool :=
  ((b.date.compare a.date).then (compare b.number a.number)).isLE

def sortNewestFirst (messages : List Message) : List Message := messages.mergeSort newestFirst

end Message

end Colloquy
