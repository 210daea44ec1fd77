import Colloquy.Decimal.Number
import Colloquy.Decimal.Stepwise
import Colloquy.Ron.Text

/-!
The numbers of RON. A whole number for which there is no room is a fraction.
-/

namespace Colloquy.Ron
open Colloquy.Decimal

def afterWord? (word : String) (cs : List Char) : Option (List Char) :=
  let rest := cs.drop word.length
  if word.toList.isPrefixOf cs && !(rest.head?.any continuesName) then some rest else none

/-- The nearest number with a mantissa of 24 bits, as it is kept in 32 bits. -/
def toSingle : Binary → Binary
  | .finite negative mantissa exponent =>
    let length : Int := if mantissa = 0 then 0 else Nat.log2 mantissa + 1
    let surplus := max (length - 24) (-149 - exponent)
    if surplus ≤ 0 then .finite negative mantissa exponent
    else
      let kept := roundHalfEven mantissa (scale 2 1 1 surplus).1
      let (num, den) := scale 2 kept 1 (exponent + surplus)
      match Binary.nearest num den with
      | .finite _ m e =>
        if (Nat.log2 m : Int) + e < 128 then .finite negative m e else .infinite negative
      | x => x
  | x => x

def isFloatChar (c : Char) : Bool :=
  isDigit c || c = 'e' || c = 'E' || c = '.' || c = '+' || c = '-' || c = '_'

/-- The characters of a fraction without underscores, each of which has to follow a digit or the
mark of the exponent. -/
def ungroupFraction (mayGroup : Bool) : List Char → Option (List Char)
  | [] => some []
  | c :: rest =>
    if c = '_' then if mayGroup then ungroupFraction mayGroup rest else none
    else
      let mayGroup := isDigit c || c = 'e' || c = 'E' || (mayGroup && c ≠ '.')
      (ungroupFraction mayGroup rest).map (c :: ·)

def fractionWords : List (String × Binary) :=
  [("inf", .infinite false), ("+inf", .infinite false), ("-inf", .infinite true),
    ("NaN", .notANumber), ("+NaN", .notANumber), ("-NaN", .notANumber)]

def takeFractionWord (cs : List Char) : Option (Binary × List Char) :=
  fractionWords.findSome? fun (word, x) =>
    ["", "f32", "f64"].findSome? fun suffix =>
      (afterWord? (word ++ suffix) cs).map fun rest => (x, rest)

def takeFraction (cs : List Char) : Option (Binary × List Char) :=
  match takeFractionWord cs with
  | some t => some t
  | none => do
    let written ← ungroupFraction false (cs.takeWhile isFloatChar)
    let x ← readBinary written
    let rest := cs.dropWhile isFloatChar
    match afterWord? "f32" rest, afterWord? "f64" rest with
    | some rest, _ => some (toSingle x, rest)
    | none, some rest => some (x, rest)
    | none, none => some (x, rest)

def isIntegerChar (c : Char) : Bool := Text.isHexDigit c || c = '_'

def splitBase : List Char → Nat × List Char
  | '0' :: 'x' :: digits => (16, digits)
  | '0' :: 'o' :: digits => (8, digits)
  | '0' :: 'b' :: digits => (2, digits)
  | digits => (10, digits)

def readDigits (base : Nat) (cs : List Char) : Option Nat :=
  let digits := cs.filter (· ≠ '_')
  if cs.head?.all (· = '_') || !digits.all (fun d => Text.hexValue d < base) then none
  else some (digits.foldl (fun n d => base * n + Text.hexValue d) 0)

def integerSuffixes : List (String × Int × Int) :=
  [("i8", -128, 127), ("i16", -32768, 32767), ("i32", -2147483648, 2147483647),
    ("i64", minInt64, maxInt64), ("u8", 0, 255), ("u16", 0, 65535), ("u32", 0, 4294967295),
    ("u64", 0, Scaled.greatest)]

def takeInteger (cs : List Char) : Option (Int × List Char) := do
  let (negative, cs) := match cs with
    | '+' :: rest => (false, rest)
    | '-' :: rest => (true, rest)
    | rest => (false, rest)
  let (base, _) := splitBase cs
  let marked := if base = 10 then 0 else 2
  let word := cs.take marked ++ (cs.drop marked).takeWhile isIntegerChar
  let rest := cs.drop word.length
  let n ← readDigits base (word.drop marked)
  let n : Int := if negative then -n else n
  let (least, greatest, rest) := match integerSuffixes.findSome? fun (suffix, bounds) =>
      (afterWord? suffix rest).map fun rest => (bounds.1, bounds.2, rest) with
    | some bounds => bounds
    | none => (if negative then minInt64 else 0, if negative then 0 else Scaled.greatest, rest)
  if least ≤ n ∧ n ≤ greatest then some (n, rest) else none

def looksFractional (cs : List Char) : Bool :=
  let rest := match cs with
    | '+' :: rest | '-' :: rest => rest
    | rest => rest
  (rest.takeWhile isIntegerChar).length < (rest.takeWhile isFloatChar).length

def takeNumber (cs : List Char) : Option (Number × List Char) :=
  let fraction := (takeFraction cs).map fun t => (Number.fraction t.1, t.2)
  if looksFractional cs then fraction
  else
    match takeInteger cs with
    | some t => some (.integer t.1, t.2)
    | none => fraction

end Colloquy.Ron
