import Colloquy.Decimal.Number
import Colloquy.Json5.Text

namespace Colloquy
open Colloquy.Decimal

inductive Json5 where
  | null
  | boolean (b : Bool)
  | number (n : Number)
  | text (s : String)
  | array (items : List Json5)
  /-- All fields in order, repeated ones included. -/
  | object (fields : List (String × Json5))

namespace Json5

def isWhole (digits : List Char) : Bool :=
  !digits.isEmpty && digits.all isDigit && (digits.head? ≠ some '0' || digits.length = 1)

def isExponent : List Char → Bool
  | '+' :: digits | '-' :: digits => !digits.isEmpty && digits.all isDigit
  | digits => !digits.isEmpty && digits.all isDigit

/-- Whether a text is an unsigned decimal fraction. Digits may be missing on one side of its
point. -/
def isDecimal (cs : List Char) : Bool :=
  let isMark (c : Char) : Bool := c = 'e' || c = 'E'
  let mantissa := cs.takeWhile fun c => !isMark c
  let whole := mantissa.takeWhile (· ≠ '.')
  let isMantissa := match mantissa.dropWhile (· ≠ '.') with
    | [] => isWhole whole
    | _ :: places => places.all isDigit && (isWhole whole || (whole.isEmpty && !places.isEmpty))
  let exponentFits := match cs.dropWhile fun c => !isMark c with
    | [] => true
    | _ :: exponent => isExponent exponent
  isMantissa && exponentFits

/-- The number of an unsigned decimal behind a sign. Integers have to fit in 64 bits, and fractions
have to be finite. -/
def readDecimal (sign cs : List Char) : Option Json5 :=
  if !isDecimal cs then none
  else if cs.all isDigit then (readInt64 (sign ++ cs)).map fun n => number (.integer n.toInt)
  else
    match readBinary (sign ++ cs) with
    | some (.finite negative mantissa exponent) =>
      some (number (.fraction (.finite negative mantissa exponent)))
    | _ => none

def greatestHexadecimal : Nat := 4294967295

def readHexadecimal (digits : List Char) : Option Json5 :=
  if !digits.isEmpty && digits.all Text.isHexDigit then
    let n := Text.hexNumber digits
    if n ≤ greatestHexadecimal then some (number (.integer n)) else none
  else none

def readWord (cs : List Char) : Option Json5 :=
  let word := String.ofList cs
  if word = "null" then some null
  else if word = "true" then some (boolean true)
  else if word = "false" then some (boolean false)
  else if word = "Infinity" then some (number (.fraction (.infinite false)))
  else if word = "-Infinity" then some (number (.fraction (.infinite true)))
  else if word = "NaN" ∨ word = "-NaN" then some (number (.fraction .notANumber))
  else
    match cs with
    | '0' :: 'x' :: digits | '0' :: 'X' :: digits => readHexadecimal digits
    | '+' :: rest => readDecimal ['+'] rest
    | '-' :: rest => readDecimal ['-'] rest
    | _ => readDecimal [] cs

def isWordChar (c : Char) : Bool := c.isAlphanum || c = '.' || c = '+' || c = '-'

/-- The parts of a list after its opening bracket, of which there are `most` at most, and what
follows the closing one. A comma may stand after the last part. -/
def takeList {α : Type} (close : Char) (take : List Char → Option (α × List Char)) :
    Nat → List Char → Option (List α × List Char)
  | 0, _ => none
  | most + 1, cs => do
    match ← skipFill .blanks cs with
    | [] => none
    | c :: rest =>
      if c = close then some ([], rest)
      else
        let (part, rest) ← take (c :: rest)
        match ← skipFill .blanks rest with
        | [] => none
        | d :: rest =>
          if d = close then some ([part], rest)
          else if d = ',' then
            let (parts, rest) ← takeList close take most rest
            some (part :: parts, rest)
          else none

def takeField (take : List Char → Option (Json5 × List Char)) (cs : List Char) :
    Option ((String × Json5) × List Char) := do
  let (name, rest) ← takeName cs
  match ← skipFill .blanks rest with
  | ':' :: rest =>
    let (value, rest) ← take (← skipFill .blanks rest)
    some ((String.ofList name, value), rest)
  | _ => none

def takeValue : Nat → List Char → Option (Json5 × List Char)
  | _, '"' :: rest =>
    (takeString '"' (rest.length + 1) rest).map fun t => (text (String.ofList t.1), t.2)
  | _, '\'' :: rest =>
    (takeString '\'' (rest.length + 1) rest).map fun t => (text (String.ofList t.1), t.2)
  | 0, '[' :: _ | 0, '{' :: _ => none
  | depth + 1, '[' :: rest =>
    (takeList ']' (takeValue depth) rest.length rest).map fun t => (array t.1, t.2)
  | depth + 1, '{' :: rest =>
    (takeList '}' (takeField (takeValue depth)) rest.length rest).map fun t => (object t.1, t.2)
  | _, cs => (readWord (cs.takeWhile isWordChar)).map fun v => (v, cs.dropWhile isWordChar)

/-- The tree of a text that is one value, with blanks and comments around it. -/
def read (cs : List Char) : Option Json5 := do
  let (value, rest) ← takeValue cs.length (← skipFill .blanks cs)
  if (← skipFill .blanks rest).isEmpty then some value else none

end Json5

end Colloquy
