import Colloquy.Decimal
import Colloquy.Json.Text

/-!
JSON texts as trees, in which numbers and strings keep their written form and objects all their
fields.
-/

namespace Colloquy

inductive Json where
  | null
  | boolean (b : Bool)
  | number (written : List UInt8)
  | string (written : List UInt8)
  | array (items : List Json)
  | object (fields : List (List UInt8 × Json))

namespace Json

/-- An array or an object that has not ended. Items and fields are listed latest first. -/
inductive Container where
  | array (items : List Json)
  | object (fields : List (List UInt8 × Json))
  /-- An object whose latest field has a name but no value. -/
  | field (fields : List (List UInt8 × Json)) (name : List UInt8)

inductive Due where
  | value
  | valueOrEnd
  | name
  /-- The name of a field, or the end of an object that holds nothing yet. -/
  | nameOrEnd
  | colon
  | commaOrEnd
deriving DecidableEq

/-- How far a text has been read: what is due in the containers that have not ended, innermost
first, or the whole value. -/
inductive Progress where
  | unfinished (due : Due) (outer : List Container)
  | complete (value : Json)

namespace Progress

def place (value : Json) : List Container → Option Progress
  | [] => some (complete value)
  | .array items :: outer => some (unfinished .commaOrEnd (.array (value :: items) :: outer))
  | .field fields name :: outer =>
    some (unfinished .commaOrEnd (.object ((name, value) :: fields) :: outer))
  | .object _ :: _ => none

def scalar? : Token → Option Json
  | .null => some .null
  | .boolean b => some (.boolean b)
  | .number written => some (.number written)
  | .string written => some (.string written)
  | _ => none

def takeValue (outer : List Container) : Token → Option Progress
  | .beginArray => some (unfinished .valueOrEnd (.array [] :: outer))
  | .beginObject => some (unfinished .nameOrEnd (.object [] :: outer))
  | t => (scalar? t).bind fun value => place value outer

def take? : Progress → Token → Option Progress
  | unfinished .value outer, t => takeValue outer t
  | unfinished .valueOrEnd (.array [] :: outer), .endArray => place (.array []) outer
  | unfinished .valueOrEnd outer, t => takeValue outer t
  | unfinished .name (.object fields :: outer), .string name =>
    some (unfinished .colon (.field fields name :: outer))
  | unfinished .nameOrEnd (.object fields :: outer), .string name =>
    some (unfinished .colon (.field fields name :: outer))
  | unfinished .nameOrEnd (.object [] :: outer), .endObject => place (.object []) outer
  | unfinished .colon outer, .colon => some (unfinished .value outer)
  | unfinished .commaOrEnd (.array items :: outer), .comma =>
    some (unfinished .value (.array items :: outer))
  | unfinished .commaOrEnd (.object fields :: outer), .comma =>
    some (unfinished .name (.object fields :: outer))
  | unfinished .commaOrEnd (.array items :: outer), .endArray => place (.array items.reverse) outer
  | unfinished .commaOrEnd (.object fields :: outer), .endObject =>
    place (.object fields.reverse) outer
  | _, _ => none

/-- Takes all tokens of a text, which have to make up one value. -/
def takeAll : Progress → List Token → Option Json
  | complete value, [] => some value
  | _, [] => none
  | p, t :: rest => (p.take? t).bind fun next => takeAll next rest

end Progress

def read (bs : List UInt8) : Option Json :=
  (tokens bs).bind (Progress.unfinished .value []).takeAll

def ascii (bs : List UInt8) : List Char := bs.map fun b => Char.ofNat b.toNat

/-- A number that is written as an integer. A zero with a sign is not one. -/
def integer? : Json → Option Int
  | number written =>
    if written = bytes "-0" then none else Decimal.readInt (ascii written)
  | _ => none

def text? : Json → Option (List Char)
  | string written => unquote written
  | _ => none

def array? : Json → Option (List Json)
  | array items => some items
  | _ => none

end Json

end Colloquy
