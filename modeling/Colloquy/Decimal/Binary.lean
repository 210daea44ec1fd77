import Colloquy.Decimal

/-!
Fractions in binary floating point of 64 bits, computed with whole numbers throughout.
-/

namespace Colloquy.Decimal

/-- A number of binary floating point. A finite one is a mantissa below 2^53 times a power of two,
whose exponent is the least possible. -/
inductive Binary where
  | finite (negative : Bool) (mantissa : Nat) (exponent : Int)
  | infinite (negative : Bool)
  | notANumber
deriving DecidableEq, Repr

/-- A quotient rounded to the nearest whole number, a half to the even one. -/
def roundHalfEven (num den : Nat) : Nat :=
  let q := num / den
  let r := num % den
  if 2 * r < den then q
  else if 2 * r = den then q + q % 2
  else q + 1

/-- A quotient rounded to the nearest whole number, a half upwards. -/
def roundHalfUp (num den : Nat) : Nat := (2 * num + den) / (2 * den)

def scale (base : Nat) (num den : Nat) (power : Int) : Nat × Nat :=
  if 0 ≤ power then (num * Nat.pow base power.toNat, den)
  else (num, den * Nat.pow base (-power).toNat)

namespace Binary

def leastExponent : Int := -1074

def greatestExponent : Int := 971

def mantissaLimit : Nat := 9007199254740992

/-- The exponent with which a fraction has a mantissa of 53 bits, or the least. -/
def exponentOf (num den : Nat) : Int :=
  let guess := max ((Nat.log2 num : Int) - Nat.log2 den - 53) leastExponent
  let (n, d) := scale 2 num den (-guess)
  if mantissaLimit ≤ n / d then guess + 1 else guess

def ofFraction (negative : Bool) (num den : Nat) : Binary :=
  let exponent := exponentOf num den
  let (n, d) := scale 2 num den (-exponent)
  let mantissa := roundHalfEven n d
  let (mantissa, exponent) :=
    if mantissa = mantissaLimit then (mantissaLimit / 2, exponent + 1) else (mantissa, exponent)
  if greatestExponent < exponent then infinite negative else finite negative mantissa exponent

/-- The nearest number to digits times a power of ten. Powers that are out of all reach are not
computed. -/
def ofDecimal (negative : Bool) (digits : Nat) (power : Int) : Binary :=
  if digits = 0 then finite negative 0 leastExponent
  else
    let magnitude := power + (Decimal.ofNat digits).length
    if 400 < magnitude then infinite negative
    else if magnitude < -400 then finite negative 0 leastExponent
    else
      let (num, den) := scale 10 digits 1 power
      ofFraction negative num den

/-- The numbers of at most `places` digits next to a fraction, with the power of ten they are
counted in. -/
def neighbours (num den : Nat) (leading : Int) (places : Nat) : Int × Nat × Nat :=
  let power := leading - places + 1
  let (n, d) := scale 10 num den (-power)
  (power, n / d, n / d + 1)

def leadingPower (num den : Nat) : Int :=
  let guess : Int := (Decimal.ofNat num).length - (Decimal.ofNat den).length
  let (n, d) := scale 10 num den (-guess)
  if n < d then guess - 1 else guess

/-- The number of at most `places` digits that is nearest among those which stand for a given
number, with its power of ten. -/
def digitsOf? (number : Binary) (num den places : Nat) : Option (Nat × Int) :=
  let (power, below, above) := neighbours num den (leadingPower num den) places
  let (n, d) := scale 10 num den (-power)
  let belowFits := ofDecimal false below power = number
  let aboveFits := ofDecimal false above power = number
  if belowFits ∧ (¬ aboveFits ∨ 2 * (n % d) ≤ d) then some (below, power)
  else if aboveFits then some (above, power)
  else none

/-- The fewest digits that stand for a mantissa times a power of two, with their power of ten. -/
def shortest (mantissa : Nat) (exponent : Int) : Nat × Int :=
  let (num, den) := scale 2 mantissa 1 exponent
  ((List.range 17).findSome? fun k =>
    digitsOf? (finite false mantissa exponent) num den (k + 1)).getD (0, 0)

def positional (digits : List Char) (power : Int) : List Char :=
  if 0 ≤ power then digits ++ List.replicate power.toNat '0'
  else
    let places := (-power).toNat
    let padded := List.replicate (places + 1 - digits.length) '0' ++ digits
    let fraction := ((padded.drop (padded.length - places)).reverse.dropWhile (· = '0')).reverse
    padded.take (padded.length - places) ++ if fraction.isEmpty then [] else '.' :: fraction

def display : Binary → List Char
  | finite negative mantissa exponent =>
    let (digits, power) := if mantissa = 0 then (0, 0) else shortest mantissa exponent
    (if negative then ['-'] else []) ++ positional (Decimal.ofNat digits) power
  | infinite negative => (if negative then ['-'] else []) ++ ['i', 'n', 'f']
  | notANumber => ['N', 'a', 'N']

/-- The nearest whole number from zero to `most`, a half going upwards. What is not a number counts
as zero. -/
def toNat (most : Nat) : Binary → Nat
  | finite negative mantissa exponent =>
    if negative then 0
    else
      let (num, den) := scale 2 mantissa 1 exponent
      min (roundHalfUp num den) most
  | infinite negative => if negative then 0 else most
  | notANumber => 0

end Binary

/-- Digits with a point among them, as a number and the places after the point. There has to be a
digit. -/
def readPlaces (cs : List Char) : Option (Nat × Nat) :=
  let whole := cs.takeWhile isDigit
  match cs.dropWhile isDigit with
  | [] => (readNat whole).map fun n => (n, 0)
  | '.' :: fraction =>
    if fraction.all isDigit then (readNat (whole ++ fraction)).map fun n => (n, fraction.length)
    else none
  | _ => none

def readUnsigned (negative : Bool) (cs : List Char) : Option Binary :=
  let isMark (c : Char) : Bool := c = 'e' || c = 'E'
  let before := cs.takeWhile fun c => !isMark c
  match readPlaces before, cs.dropWhile fun c => !isMark c with
  | some (n, places), [] => some (.ofDecimal negative n (-(places : Int)))
  | some (n, places), _ :: exponent =>
    (readInt exponent).map fun e => .ofDecimal negative n (e - places)
  | none, _ => none

/-- A number of binary floating point: a decimal fraction, an infinity or no number at all, with an
optional sign and letters of either case. -/
def readBinary (cs : List Char) : Option Binary :=
  let (negative, rest) := match cs with
    | '-' :: rest => (true, rest)
    | '+' :: rest => (false, rest)
    | rest => (false, rest)
  let word := String.ofList (rest.map Char.toLower)
  if word = "inf" ∨ word = "infinity" then some (.infinite negative)
  else if word = "nan" then some .notANumber
  else readUnsigned negative rest

end Colloquy.Decimal
