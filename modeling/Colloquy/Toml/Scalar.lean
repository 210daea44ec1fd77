import Colloquy.Calendar.Timestamp
import Colloquy.Decimal.Binary

/-!
The values of TOML that are one word. Times are only checked and spelled in one way; they name no
instant.
-/

namespace Colloquy.Toml
open Colloquy.Decimal

inductive Scalar where
  | boolean (b : Bool)
  | integer (n : Int64)
  | fraction (x : Binary)
  | text (s : String)
  | time (written : List Char)
deriving DecidableEq

/-- Digits without the underscores that stand between them. There has to be a digit. -/
def ungroup (isDigit : Char → Bool) : List Char → Option (List Char)
  | [] => none
  | [d] => if isDigit d then some [d] else none
  | d :: '_' :: rest => if isDigit d then (ungroup isDigit rest).map (d :: ·) else none
  | d :: rest => if isDigit d then (ungroup isDigit rest).map (d :: ·) else none

def splitSign : List Char → List Char × List Char
  | '+' :: rest => ([], rest)
  | '-' :: rest => (['-'], rest)
  | cs => ([], cs)

def readWhole (cs : List Char) : Option (List Char) :=
  (ungroup Decimal.isDigit cs).bind fun digits =>
    if digits.head? = some '0' ∧ digits.length ≠ 1 then none else some digits

def readBase (base : Nat) (cs : List Char) : Option Int :=
  let digit (c : Char) : Nat := if Decimal.isDigit c then digitValue c else
    c.toLower.toNat - 'a'.toNat + 10
  let isDigit (c : Char) : Bool := c.isAlphanum && digit c < base
  (ungroup isDigit cs).map fun digits =>
    (digits.foldl (fun n c => base * n + digit c) 0 : Nat)

/-- A whole number: in decimal with an optional sign, or in the base that its first letters tell. -/
def readInteger : List Char → Option Int
  | '0' :: 'x' :: digits => readBase 16 digits
  | '0' :: 'o' :: digits => readBase 8 digits
  | '0' :: 'b' :: digits => readBase 2 digits
  | cs =>
    let (sign, rest) := splitSign cs
    (readWhole rest).bind fun digits => readInt (sign ++ digits)

def isExponentMark (c : Char) : Bool := c = 'e' || c = 'E'

def readPlaces : List Char → Option (List Char)
  | [] => some []
  | '.' :: digits => (ungroup Decimal.isDigit digits).map ('.' :: ·)
  | _ => none

def readExponent : List Char → Option (List Char)
  | [] => some []
  | _ :: cs =>
    let (sign, rest) := splitSign cs
    (ungroup Decimal.isDigit rest).map fun digits => 'e' :: sign ++ digits

/-- A decimal fraction. One that is too large for any finite number is refused. -/
def readDecimal (cs : List Char) : Option Binary := do
  let (sign, rest) := splitSign cs
  let mantissa := rest.takeWhile fun c => !isExponentMark c
  let whole ← readWhole (mantissa.takeWhile (· ≠ '.'))
  let places ← readPlaces (mantissa.dropWhile (· ≠ '.'))
  let exponent ← readExponent (rest.dropWhile fun c => !isExponentMark c)
  match ← readBinary (sign ++ whole ++ places ++ exponent) with
  | .infinite _ => none
  | number => some number

def readFraction (cs : List Char) : Option Binary :=
  let rest := String.ofList (splitSign cs).2
  if rest = "inf" ∨ rest = "nan" then readBinary cs else readDecimal cs

open Timestamp in
def takeDate (cs : List Char) : Option (List Char × List Char) := do
  let (year, cs) ← takeNumber 4 4 cs
  let (month, cs) ← takeNumber 2 2 (← takeChar '-' cs)
  let (day, cs) ← takeNumber 2 2 (← takeChar '-' cs)
  let date ← Date.of? year month day
  some (writeDate date, cs)

/-- The digits of a fraction of a second: nine at most count, and of zeros at the end only one that
is alone. -/
def trimFraction (digits : List Char) : List Char :=
  let kept := ((digits.take 9).reverse.dropWhile (· = '0')).reverse
  '.' :: if kept.isEmpty then ['0'] else kept

open Timestamp in
def takeSeconds (cs : List Char) : Option (List Char × List Char) := do
  let (second, cs) ← takeNumber 2 2 cs
  if 60 < second then none
  else
    let written := ':' :: padded 2 second
    match cs with
    | '.' :: rest =>
      let digits := rest.takeWhile Decimal.isDigit
      if digits.isEmpty then none
      else some (written ++ trimFraction digits, rest.dropWhile Decimal.isDigit)
    | _ => some (written, cs)

open Timestamp in
def takeTime (cs : List Char) : Option (List Char × List Char) := do
  let (hour, cs) ← takeNumber 2 2 cs
  let (minute, cs) ← takeNumber 2 2 (← takeChar ':' cs)
  if 23 < hour ∨ 59 < minute then none
  else
    let written := padded 2 hour ++ ':' :: padded 2 minute
    match cs with
    | ':' :: rest => (takeSeconds rest).map fun t => (written ++ t.1, t.2)
    | _ => some (written, cs)

open Timestamp in
/-- An offset of less than a day; a single letter stands for zero. -/
def readOffset : List Char → Option (List Char)
  | ['Z'] | ['z'] => some ['Z']
  | sign :: cs => do
    if sign ≠ '+' ∧ sign ≠ '-' then none
    let (hours, cs) ← takeNumber 2 2 cs
    let (minutes, cs) ← takeNumber 2 2 (← takeChar ':' cs)
    if !cs.isEmpty || 23 < hours || 59 < minutes then none
    let sign := if hours = 0 ∧ minutes = 0 then '+' else sign
    some (sign :: padded 2 hours ++ ':' :: padded 2 minutes)
  | [] => none

def readTime (cs : List Char) : Option (List Char) :=
  match takeDate cs with
  | none => (takeTime cs).bind fun t => if t.2.isEmpty then some t.1 else none
  | some (date, []) => some date
  | some (date, separator :: rest) => do
    if separator ≠ 'T' ∧ separator ≠ 't' ∧ separator ≠ ' ' then none
    let (clock, rest) ← takeTime rest
    let offset ← if rest.isEmpty then some [] else readOffset rest
    some (date ++ 'T' :: clock ++ offset)

def readScalar (cs : List Char) : Option Scalar :=
  let word := String.ofList cs
  if word = "true" then some (.boolean true)
  else if word = "false" then some (.boolean false)
  else
    match readTime cs, readInteger cs with
    | some written, _ => some (.time written)
    | none, some n => (toInt64? n).map .integer
    | none, none => (readFraction cs).map .fraction

def isWordChar (c : Char) : Bool :=
  c.isAlphanum || c = '_' || c = '-' || c = '+' || c = '.' || c = ':'

/-- A word. A date and a time with a space between them are one. -/
def takeWord (cs : List Char) : List Char × List Char :=
  let word := cs.takeWhile isWordChar
  match takeDate word, cs.dropWhile isWordChar with
  | some (_, []), ' ' :: d :: rest =>
    if Decimal.isDigit d then
      (word ++ ' ' :: (d :: rest).takeWhile isWordChar, (d :: rest).dropWhile isWordChar)
    else (word, ' ' :: d :: rest)
  | _, rest => (word, rest)

def takeScalar (cs : List Char) : Option (Scalar × List Char) :=
  let (word, rest) := takeWord cs
  (readScalar word).map fun s => (s, rest)

end Colloquy.Toml
