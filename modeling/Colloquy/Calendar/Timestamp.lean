import Colloquy.Calendar.Instant
import Colloquy.Decimal
import Colloquy.Text.Blank

/-!
Written instants. The strict form is the standard one, with any offset; the lenient form allows
blanks between the parts and signed years as well.
-/

namespace Colloquy.Timestamp
open Colloquy.Decimal Colloquy.Text

/-- Years of four digits are written plainly, all others with a sign. -/
def writeYear (year : Int) : List Char :=
  if 0 ≤ year ∧ year ≤ 9999 then padded 4 year.toNat
  else (if year < 0 then '-' else '+') :: padded 4 year.natAbs

def writeDate (d : Date) : List Char :=
  writeYear d.year ++ '-' :: padded 2 d.month ++ '-' :: padded 2 d.day

/-- The fraction of a second in the fewest of 0, 3, 6 and 9 digits that is exact. -/
def writeFraction (nanos : Nat) : List Char :=
  if nanos = 0 then []
  else if nanos % 1000000 = 0 then '.' :: padded 3 (nanos / 1000000)
  else if nanos % 1000 = 0 then '.' :: padded 6 (nanos / 1000)
  else '.' :: padded 9 nanos

/-- The time of day; a leap second is the sixtieth of its minute. -/
def writeTime (t : Instant) : List Char :=
  padded 2 (t.second / 3600) ++ ':' :: padded 2 (t.second / 60 % 60) ++
    ':' :: padded 2 (t.second % 60 + t.nanos / 1000000000) ++
    writeFraction (t.nanos % 1000000000)

def write (zone : List Char) (t : Instant) : List Char :=
  writeDate t.date ++ 'T' :: writeTime t ++ zone

def display (t : Instant) : List Char := write ['+', '0', '0', ':', '0', '0'] t

def compact (t : Instant) : List Char := write ['Z'] t

/-- The parts of a written instant before they are checked against the calendar. -/
structure Parts where
  year : Int
  month : Nat
  day : Nat
  hour : Nat
  minute : Nat
  second : Nat
  nanos : Nat
  /-- Seconds ahead of universal time. -/
  offset : Int

/-- The instant that the parts name. The sixtieth second of any minute is a leap second. -/
def Parts.toInstant? (p : Parts) : Option Instant := do
  let date ← Date.of? p.year p.month p.day
  if 23 < p.hour ∨ 59 < p.minute ∨ 60 < p.second ∨ 86400 ≤ p.offset ∨ p.offset ≤ -86400 then none
  else
    let second := (p.hour * 60 + p.minute) * 60 + min p.second 59
    let nanos := p.nanos + if p.second = 60 then 1000000000 else 0
    Instant.ofLocal? date second nanos p.offset

/-- At least `least` and at most `most` digits from the front. -/
def takeNumber (least most : Nat) (cs : List Char) : Option (Nat × List Char) :=
  let digits := (cs.take most).takeWhile isDigit
  if least ≤ digits.length then some (value digits, cs.drop digits.length) else none

def takeAllDigits (cs : List Char) : Option (Nat × List Char) :=
  let digits := cs.takeWhile isDigit
  if digits.isEmpty then none else some (value digits, cs.dropWhile isDigit)

def takeChar (c : Char) : List Char → Option (List Char)
  | d :: rest => if d = c then some rest else none
  | [] => none

def takeYear (cs : List Char) : Option (Int × List Char) :=
  match trimLeft cs with
  -- with a sign a year may have any number of digits
  | '-' :: rest => (takeAllDigits rest).map fun (n, r) => (-(n : Int), r)
  | '+' :: rest => (takeAllDigits rest).map fun (n, r) => ((n : Int), r)
  | rest => (takeNumber 1 4 rest).map fun (n, r) => ((n : Int), r)

def takeShort (cs : List Char) : Option (Nat × List Char) := takeNumber 1 2 (trimLeft cs)

/-- The digits of a fraction as nanoseconds; digits past the ninth are dropped. -/
def takeNanos (cs : List Char) : Option (Nat × List Char) := do
  let digits := (cs.take 9).takeWhile isDigit
  if digits.isEmpty then none
  else
    some (value digits * Nat.pow 10 (9 - digits.length),
      (cs.drop digits.length).dropWhile isDigit)

def takeFraction : List Char → Option (Nat × List Char)
  | '.' :: rest => takeNanos rest
  | rest => some (0, rest)

/-- A letter for the offset zero, or a sign, two digits of hours, what `between` accepts and two
digits of minutes. -/
def takeOffset (between : List Char → Option (List Char)) :
    List Char → Option (Int × List Char)
  | [] => none
  | c :: rest =>
    if c = 'Z' ∨ c = 'z' then some (0, rest)
    -- a hyphen or the sign of a subtraction
    else if c = '+' ∨ c = '-' ∨ c = '−' then do
      let (hours, rest) ← takeNumber 2 2 rest
      let (minutes, rest) ← takeNumber 2 2 (← between rest)
      if 59 < minutes then none
      else
        let seconds : Int := (hours * 60 + minutes) * 60
        some (if c = '+' then seconds else -seconds, rest)
    else none

def takeSeparator : List Char → Option (List Char)
  | c :: rest => if c = 'T' ∨ c = 't' ∨ c = ' ' then some rest else none
  | [] => none

def readStrict (cs : List Char) : Option Instant := do
  let (year, cs) ← takeNumber 4 4 cs
  let (month, cs) ← takeNumber 2 2 (← takeChar '-' cs)
  let (day, cs) ← takeNumber 2 2 (← takeChar '-' cs)
  let (hour, cs) ← takeNumber 2 2 (← takeSeparator cs)
  let (minute, cs) ← takeNumber 2 2 (← takeChar ':' cs)
  let (second, cs) ← takeNumber 2 2 (← takeChar ':' cs)
  let (nanos, cs) ← takeFraction cs
  let (offset, cs) ← takeOffset (takeChar ':') cs
  if cs.isEmpty then
    Parts.toInstant? ⟨year, month, day, hour, minute, second, nanos, offset⟩
  else none

/-- An offset of the lenient form, which may be the three letters of universal time too. -/
def takeZone (cs : List Char) : Option (Int × List Char) :=
  match cs with
  | a :: b :: c :: rest =>
    if (a = 'U' ∨ a = 'u') ∧ (b = 'T' ∨ b = 't') ∧ (c = 'C' ∨ c = 'c') then some (0, rest)
    else takeOffset (fun r => some (r.dropWhile fun x => x = ':' || isBlank x)) cs
  | _ => takeOffset (fun r => some (r.dropWhile fun x => x = ':' || isBlank x)) cs

/-- The lenient form: blanks between the parts, short numbers and signed years are allowed. -/
def readLenient (cs : List Char) : Option Instant := do
  let (year, cs) ← takeYear cs
  let (month, cs) ← takeShort (← takeChar '-' (trimLeft cs))
  let (day, cs) ← takeShort (← takeChar '-' (trimLeft cs))
  let (hour, cs) ← takeShort (← takeSeparator cs)
  let (minute, cs) ← takeShort (← takeChar ':' (trimLeft cs))
  let (second, cs) ← takeShort (← takeChar ':' (trimLeft cs))
  let (nanos, cs) ← takeFraction cs
  let (offset, cs) ← takeZone (trimLeft cs)
  if (trimLeft cs).isEmpty then
    Parts.toInstant? ⟨year, month, day, hour, minute, second, nanos, offset⟩
  else none

/-- A plain date: year, month and day between hyphens, blanks allowed before each number. -/
def readDate (cs : List Char) : Option Date := do
  let (year, cs) ← takeYear cs
  let (month, cs) ← takeShort (← takeChar '-' cs)
  let (day, cs) ← takeShort (← takeChar '-' cs)
  if cs.isEmpty then Date.of? year month day else none

/-- The instant that a text names, blanks around it aside: the standard form, or else a plain date,
which stands for its midnight. -/
def read (cs : List Char) : Option Instant :=
  let cs := trim cs
  match readStrict cs with
  | some t => some t
  | none => (readDate cs).map Instant.midnight

end Colloquy.Timestamp
