namespace Colloquy.Text

def isHexDigit (c : Char) : Bool :=
  ('0' ≤ c && c ≤ '9') || ('a' ≤ c && c ≤ 'f') || ('A' ≤ c && c ≤ 'F')

def hexValue (c : Char) : Nat :=
  if c ≤ '9' then c.toNat - '0'.toNat
  else if 'a' ≤ c then c.toNat - 'a'.toNat + 10
  else c.toNat - 'A'.toNat + 10

def hexNumber (digits : List Char) : Nat := digits.foldl (fun n c => 16 * n + hexValue c) 0

/-- The number that is written in a number of hexadecimal digits at the front. -/
def hexFront? (digits : Nat) (cs : List Char) : Option Nat :=
  let written := cs.take digits
  if written.length = digits ∧ written.all isHexDigit then some (hexNumber written) else none

def ofCode? (code : Nat) : Option Char :=
  if code.isValidChar then some (Char.ofNat code) else none

/-- The character whose code is written in a number of hexadecimal digits at the front. -/
def codeChar? (digits : Nat) (cs : List Char) : Option Char :=
  (hexFront? digits cs).bind ofCode?

end Colloquy.Text
