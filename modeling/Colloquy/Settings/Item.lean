import Colloquy.Json.Number
import Colloquy.Json5
import Colloquy.Ron
import Colloquy.Text.Lowercase
import Colloquy.Toml
import Colloquy.Yaml

/-!
What a setting may be given as. The same item may be taken for a text or for a whole number.
-/

namespace Colloquy.Settings
open Colloquy.Decimal

inductive Item where
  | nothing
  | boolean (b : Bool)
  | integer (n : Int)
  | fraction (x : Binary)
  | text (s : String)
  | group
deriving DecidableEq

/-- Names with what they are given as. Of one name the last counts. -/
abbrev Layer := List (String × Item)

def ofFlag (b : Bool) : UInt64 := if b then 1 else 0

def readSwitch (s : String) : Option Bool :=
  let word := String.ofList (Text.lower s.toList)
  if word = "true" ∨ word = "on" ∨ word = "yes" then some true
  else if word = "false" ∨ word = "off" ∨ word = "no" then some false
  else none

def readWord (s : String) : Option UInt64 :=
  if s.toList.head? = some '-' then none else (readInt s.toList).bind toUInt64?

namespace Item

def text? : Item → Option String
  | nothing | group => none
  | boolean b => some (if b then "true" else "false")
  | integer n => some (String.ofList (Decimal.ofInt n))
  | fraction x => some (String.ofList x.display)
  | text s => some s

/-- The whole number that an item is taken for. Fractions are rounded, and brought into range. -/
def word? : Item → Option UInt64
  | nothing | group => none
  | boolean b => some (ofFlag b)
  | integer n => toUInt64? n
  | fraction x => some (UInt64.ofNat (x.toNat 18446744073709551615))
  | text s =>
    match readSwitch s with
    | some b => some (ofFlag b)
    | none => readWord s

/-- A value of TOML. Times are kept as texts. -/
def ofToml : Toml → Item
  | .scalar (.boolean b) => boolean b
  | .scalar (.integer n) => integer n.toInt
  | .scalar (.fraction x) => fraction x
  | .scalar (.text s) => text s
  | .scalar (.time written) => text (String.ofList written)
  | .array _ | .table _ _ | .tables _ => group

def ofNumber : Number → Item
  | .integer n => integer n
  | .fraction x => fraction x

def ofJson (j : Json) : Option Item :=
  match j with
  | .null => some nothing
  | .boolean b => some (boolean b)
  | .number written => (Json.number? written).map ofNumber
  | .string _ => j.text?.map fun t => text (String.ofList t)
  | .array _ | .object _ => some group

/-- A value of YAML. Numbers that are not whole have to be written in digits. -/
def ofYaml : Yaml → Option Item
  | .unfit | .scalar .null => some nothing
  | .scalar (.boolean b) => some (boolean b)
  | .scalar (.integer n) => some (integer n.toInt)
  | .scalar (.real written) => (readBinary written.toList).map fraction
  | .scalar (.text s) => some (text s)
  | .list _ | .map _ => some group

def ofRon (value : Ron) : Item :=
  match value.content with
  | .unit | .present _ => nothing
  | .boolean b => boolean b
  | .number n => ofNumber n
  | .text s => text s
  | .list _ | .map _ => group

def ofJson5 : Json5 → Item
  | .null => nothing
  | .boolean b => boolean b
  | .number n => ofNumber n
  | .text s => text s
  | .array _ | .object _ => group

/-- A value of the environment: a truth value, a whole number of 64 bits, a fraction or a text. -/
def ofEnvironment (s : String) : Item :=
  let word := String.ofList (Text.lower s.toList)
  if word = "true" then boolean true
  else if word = "false" then boolean false
  else
    -- what is no whole number of 64 bits may still be read as a fraction, with its digits rounded
    match readInt64 s.toList, readBinary s.toList with
    | some n, _ => integer n.toInt
    | none, some x => fraction x
    | none, none => text s

end Item

end Colloquy.Settings
