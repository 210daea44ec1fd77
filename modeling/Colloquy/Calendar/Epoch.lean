import Colloquy.Calendar.Instant

/-!
Instants from the count of seconds that clocks keep.
-/

namespace Colloquy

/-- The days from the first of January of the year 1 to that of 1970. -/
def Date.epochDay : Int := 719162

def Date.yearOf (day : Int) : Int :=
  let near := day * 400 / 146097 + 1
  if daysBeforeYear (near + 1) ≤ day then near + 1
  else if daysBeforeYear near ≤ day then near
  else near - 1

def Date.monthOf (year : Int) (day : Nat) : Nat :=
  ([12, 11, 10, 9, 8, 7, 6, 5, 4, 3, 2].find? fun month => daysBeforeMonth year month ≤ day).getD 1

/-- The day with a `dayNumber`, if the calendar reaches it. -/
def Date.ofDayNumber? (number : Int) : Option Date :=
  let day := number + epochDay
  let year := yearOf day
  let dayOfYear := (day - daysBeforeYear year).toNat
  let month := monthOf year dayOfYear
  of? year month (dayOfYear - daysBeforeMonth year month + 1)

/-- The instant that is so many seconds and nanoseconds past the beginning of 1970. -/
def Instant.ofEpoch? (seconds : Int) (nanos : Nat) : Option Instant :=
  (Date.ofDayNumber? (seconds / 86400)).bind fun date =>
    Instant.of? date (seconds % 86400).toNat nanos

end Colloquy
