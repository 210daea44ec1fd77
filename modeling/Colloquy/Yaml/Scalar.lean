import Colloquy.Decimal.Binary
import Colloquy.Text.Hexadecimal
import Colloquy.Yaml.Tag

/-!
Plain scalars are null, truth values or numbers if they look like them, unless a tag tells
otherwise.
-/

namespace Colloquy.Yaml
open Colloquy.Decimal

inductive Scalar where
  | null
  | boolean (b : Bool)
  | integer (n : Int64)
  | real (written : String)
  | text (s : String)
deriving DecidableEq

namespace Scalar

/-- A whole number in octal digits or in hexadecimal ones, with an optional sign. -/
def readBase (base : Nat) (cs : List Char) : Option Int64 :=
  let isFit (digits : List Char) : Bool :=
    !digits.isEmpty && digits.all fun c => Text.isHexDigit c && Text.hexValue c < base
  let value (digits : List Char) : Nat :=
    digits.foldl (fun n c => base * n + Text.hexValue c) 0
  match cs with
  | '-' :: digits => if isFit digits then toInt64? (-(value digits : Int)) else none
  | '+' :: digits | digits => if isFit digits then toInt64? (value digits) else none

def readMarked : List Char → Option Int64
  | '0' :: 'x' :: cs => readBase 16 cs
  | '0' :: 'o' :: cs => readBase 8 cs
  | '+' :: cs => readInt64 cs
  | _ => none

def realWords : List String :=
  [".inf", ".Inf", ".INF", "+.inf", "+.Inf", "+.INF", "-.inf", "-.Inf", "-.INF", ".nan", ".NaN",
    ".NAN"]

def isReal (cs : List Char) : Bool :=
  String.ofList cs ∈ realWords || (cs.any isDigit && (readBinary cs).isSome)

def readNumber (cs : List Char) : Option Scalar :=
  match readMarked cs, readInt64 cs with
  | some n, _ | none, some n => some (integer n)
  | none, none => if isReal cs then some (real (String.ofList cs)) else none

def ofPlain (cs : List Char) : Scalar :=
  let s := String.ofList cs
  if s ∈ ["~", "null", "NULL"] then null
  else if s ∈ ["true", "True", "TRUE"] then boolean true
  else if s ∈ ["false", "False", "FALSE"] then boolean false
  else (readNumber cs).getD (text s)

def coreHandle : String := "tag:yaml.org,2002:"

/-- What a plain scalar with a tag stands for, if it is what the tag tells. -/
def ofTagged (tag : Tag) (cs : List Char) : Option Scalar :=
  let s := String.ofList cs
  if tag = ⟨coreHandle, "bool"⟩ then
    if s = "true" then some (boolean true) else if s = "false" then some (boolean false) else none
  else if tag = ⟨coreHandle, "int"⟩ then (readInt64 cs).map integer
  else if tag = ⟨coreHandle, "float"⟩ then if isReal cs then some (real s) else none
  else if tag = ⟨coreHandle, "null"⟩ then if s = "~" ∨ s = "null" then some null else none
  else some (text s)

def name? : Scalar → Option String
  | null => none
  | boolean b => some (if b then "true" else "false")
  | integer n => some (String.ofList (Decimal.ofInt n.toInt))
  | real written => some written
  | text s => some s

end Scalar

end Colloquy.Yaml
