import Colloquy.Calendar.Date

/-!
Instants of universal time. A leap second shares the second of the day with the one before it, and
is told from it by a nanosecond count of a thousand million or more.
-/

namespace Colloquy

structure Instant where
  date : Date
  second : Nat
  /-- The nanosecond of the second, counted on through a leap second. -/
  nanos : Nat
  second_lt : second < 86400
  nanos_lt : nanos < 2000000000
deriving DecidableEq

namespace Instant

/-- The instant with the given parts, where a leap second ends a minute. -/
def of? (date : Date) (second nanos : Nat) : Option Instant :=
  if h : second < 86400 ∧ nanos < 2000000000 ∧ (1000000000 ≤ nanos → second % 60 = 59) then
    some ⟨date, second, nanos, h.1, h.2.1⟩
  else none

def midnight (date : Date) : Instant :=
  ⟨date, 0, 0, by decide, by decide⟩

/-- Earlier instants first; a leap second lies between its neighbours. -/
def compare (a b : Instant) : Ordering :=
  ((a.date.compare b.date).then (Ord.compare a.second b.second)).then
    (Ord.compare a.nanos b.nanos)

def isLeapSecond (t : Instant) : Bool := 1000000000 ≤ t.nanos

/-- The milliseconds from the beginning of 1970, rounded down. A leap second counts as the first
second of the minute after it. -/
def millis (t : Instant) : Int :=
  (t.date.dayNumber * 86400 + t.second) * 1000 + (t.nanos / 1000000 : Nat)

/-- The instant at which a clock `offset` seconds ahead of universal time shows a date and a second
of that day, if the calendar reaches it. -/
def ofLocal? (date : Date) (second nanos : Nat) (offset : Int) : Option Instant :=
  let shifted := (second : Int) - offset
  if shifted < 0 then date.previous?.bind fun d => of? d (shifted + 86400).toNat nanos
  else if shifted < 86400 then of? date shifted.toNat nanos
  else date.next?.bind fun d => of? d (shifted - 86400).toNat nanos

end Instant

end Colloquy
