import Colloquy.Decimal.Binary

/-!
Decimal fractions read in steps, each of which is rounded by itself, so that the outcome need not be
the number nearest to the fraction.
-/

namespace Colloquy.Decimal

structure Scaled where
  digits : Nat
  power : Int
deriving DecidableEq

namespace Scaled

def greatest : Nat := 18446744073709551615

def push? (s : Scaled) (d : Char) (power : Int) : Option Scaled :=
  let digits := 10 * s.digits + digitValue d
  if digits ≤ greatest then some ⟨digits, power⟩ else none

/-- Takes in the digits before the point. Those for which there is no room count by their number
alone. -/
def takeWhole (s : Scaled) : List Char → Scaled
  | [] => s
  | d :: rest =>
    match s.push? d s.power with
    | some next => takeWhole next rest
    | none => { s with power := s.power + (rest.length + 1) }

/-- Takes in the digits after the point. Those for which there is no room do not count. -/
def takePlaces (s : Scaled) : List Char → Scaled
  | [] => s
  | d :: rest =>
    match s.push? d (s.power - 1) with
    | some next => takePlaces next rest
    | none => s

end Scaled

namespace Binary

def nearest (num den : Nat) : Binary :=
  if num = 0 then finite false 0 leastExponent else ofFraction false num den

def ratio : Binary → Nat × Nat
  | finite _ mantissa exponent => scale 2 mantissa 1 exponent
  | infinite _ | notANumber => (0, 1)

def times (x y : Binary) : Binary := nearest (x.ratio.1 * y.ratio.1) (x.ratio.2 * y.ratio.2)

def dividedBy (x y : Binary) : Binary := nearest (x.ratio.1 * y.ratio.2) (x.ratio.2 * y.ratio.1)

def greatestPower : Int := 308

def powerOfTen (power : Int) : Binary := ofDecimal false 1 power

/-- Scales a number by a power of ten, in steps of which a few bring every number to zero.
Nothing comes of a number that is too large. -/
def scaleBy (x : Binary) (power : Int) : Nat → Option Binary
  | 0 => some x
  | steps + 1 =>
    if greatestPower < power then if x.ratio.1 = 0 then some x else none
    else if power < -greatestPower then
      scaleBy (x.dividedBy (powerOfTen greatestPower)) (power + greatestPower) steps
    else if power < 0 then some (x.dividedBy (powerOfTen (-power)))
    else
      match x.times (powerOfTen power) with
      | infinite _ => none
      | product => some product

def negate : Binary → Binary
  | finite negative mantissa exponent => finite (!negative) mantissa exponent
  | infinite negative => infinite (!negative)
  | notANumber => notANumber

def ofScaled (negative : Bool) (s : Scaled) : Option Binary :=
  (scaleBy (nearest s.digits 1) s.power 4).map fun x => if negative then x.negate else x

end Binary

/-- The parts of an unsigned decimal fraction: the digits before the point, those after it, and the
exponent. -/
def splitUnsigned (cs : List Char) : List Char × List Char × List Char :=
  let isMark (c : Char) : Bool := c = 'e' || c = 'E'
  let mantissa := cs.takeWhile fun c => !isMark c
  (mantissa.takeWhile (· ≠ '.'), (mantissa.dropWhile (· ≠ '.')).drop 1,
    (cs.dropWhile fun c => !isMark c).drop 1)

def readStepwise (cs : List Char) : Option Binary :=
  let (negative, rest) := match cs with
    | '-' :: rest => (true, rest)
    | rest => (false, rest)
  let (whole, places, exponent) := splitUnsigned rest
  let s := ((Scaled.mk 0 0).takeWhole whole).takePlaces places
  if exponent.isEmpty then Binary.ofScaled negative s
  else (readInt exponent).bind fun e => Binary.ofScaled negative { s with power := s.power + e }

end Colloquy.Decimal
