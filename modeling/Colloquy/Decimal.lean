namespace Colloquy.Decimal

def isDigit (c : Char) : Bool := '0' ≤ c && c ≤ '9'

def digitValue (c : Char) : Nat := c.toNat - '0'.toNat

def value (digits : List Char) : Nat :=
  digits.foldl (fun n c => 10 * n + digitValue c) 0

def ofNat (n : Nat) : List Char := Nat.toDigits 10 n

def ofInt (n : Int) : List Char :=
  match n with
  | .ofNat m => ofNat m
  | .negSucc m => '-' :: ofNat (m + 1)

/-- The digits of a number behind as many zeros as it takes to have `width` of them. -/
def padded (width n : Nat) : List Char :=
  List.replicate (width - (ofNat n).length) '0' ++ ofNat n

def readNat (cs : List Char) : Option Nat :=
  if !cs.isEmpty && cs.all isDigit then some (value cs) else none

/-- A number with an optional sign, which may be a plus as well. -/
def readInt (cs : List Char) : Option Int :=
  match cs with
  | '-' :: digits => (readNat digits).map fun n => -(n : Int)
  | '+' :: digits => (readNat digits).map fun n => (n : Int)
  | digits => (readNat digits).map fun n => (n : Int)

def minInt64 : Int := -9223372036854775808

def maxInt64 : Int := 9223372036854775807

def toInt64? (n : Int) : Option Int64 :=
  if minInt64 ≤ n ∧ n ≤ maxInt64 then some (Int64.ofInt n) else none

def toUInt64? (n : Int) : Option UInt64 :=
  if 0 ≤ n ∧ n ≤ 18446744073709551615 then some (UInt64.ofNat n.toNat) else none

def readInt64 (cs : List Char) : Option Int64 := (readInt cs).bind toInt64?

end Colloquy.Decimal
