import Colloquy.Checksum
import Colloquy.Index.Corruption
import Colloquy.Json
import Colloquy.Value

/-!
The file of an index: a header line and the entries, both as JSON. Reading refuses a file that does
not match its header.
-/

namespace Colloquy.Index
open Colloquy.Json (brackets quote)

abbrev Entry := UInt64 × Value

def formatNumber : Nat := 1

def field (name : String) (value : List Char) : List Char := quote name.toList ++ ':' :: value

def tagged (name : String) (value : List Char) : List Char := brackets '{' '}' [field name value]

mutual
def writeValue : Value → List Char
  | .boolean b => tagged "Boolean" (Value.boolean b).display
  | .number n => tagged "Number" (Decimal.ofInt n.toInt)
  | .text t => tagged "Text" (quote t.toList)
  | .time t => tagged "Time" (quote (Timestamp.compact t))
  | .list items => tagged "List" (brackets '[' ']' (writeValues items))
  | .absent => quote "Absent".toList
def writeValues : List Value → List (List Char)
  | [] => []
  | item :: items => writeValue item :: writeValues items
end

def writeEntry (e : Entry) : List Char :=
  brackets '[' ']' [Decimal.ofNat e.1.toNat, writeValue e.2]

def writeBody (entries : List Entry) : List Char := brackets '[' ']' (entries.map writeEntry)

structure Header where
  format : Nat
  name : List Char
  entries : Nat
  checksum : List Char
deriving DecidableEq

def writeHeader (h : Header) : List Char :=
  brackets '{' '}'
    [field "format" (Decimal.ofNat h.format), field "name" (quote h.name),
      field "entries" (Decimal.ofNat h.entries), field "checksum" (quote h.checksum)]

def sortEntries (entries : List Entry) : List Entry :=
  entries.mergeSort fun a b => decide (a.1 ≤ b.1)

def encode (name : String) (entries : List Entry) : List UInt8 :=
  let body := Utf8.encode (writeBody (sortEntries entries))
  let header : Header := ⟨formatNumber, name.toList, entries.length, Checksum.hex body⟩
  Utf8.encode (writeHeader header) ++ Json.byte '\n' :: body

/-- The levels of arrays and objects that may enclose each other in the entries, and those that
every value in them is enclosed by. -/
def levelLimit : Nat := 127

def entryLevels : Nat := 2

mutual
/-- A value read from a tree in which `levels` more levels may open. -/
def readValue (levels : Nat) : Json → Option Value
  | .string written =>
    if Json.unquote written = some "Absent".toList then some .absent else none
  | .object [(name, content)] =>
    if levels = 0 then none
    else match Json.unquote name with
      | none => none
      | some kind =>
        if kind = "Boolean".toList then
          match content with
          | .boolean b => some (.boolean b)
          | _ => none
        else if kind = "Number".toList then
          (content.integer?.bind Decimal.toInt64?).map .number
        else if kind = "Text".toList then
          content.text?.map fun t => .text (String.ofList t)
        else if kind = "Time".toList then
          (content.text?.bind Timestamp.readLenient).map .time
        else if kind = "List".toList then
          match content with
          -- the array is one more level than the object around it
          | .array items => if levels = 1 then none else (readValues (levels - 2) items).map .list
          | _ => none
        -- never written so, but read
        else if kind = "Absent".toList then
          match content with
          | .null => some .absent
          | _ => none
        else none
  | _ => none
def readValues (levels : Nat) : List Json → Option (List Value)
  | [] => some []
  | item :: items =>
    match readValue levels item, readValues levels items with
    | some v, some vs => some (v :: vs)
    | _, _ => none
end

def readEntry : Json → Option Entry
  | .array [id, value] => do
    let id ← id.integer?.bind Decimal.toUInt64?
    let value ← readValue (levelLimit - entryLevels) value
    some (id, value)
  | _ => none

def readBody (bytes : List UInt8) : Option (List Entry) :=
  (Json.read bytes).bind fun tree => tree.array?.bind fun items => items.mapM readEntry

/-- A number of at most so many bits. -/
def readCount (bits : Nat) (j : Json) : Option Nat :=
  j.integer?.bind fun n => if 0 ≤ n ∧ n.toNat < Nat.pow 2 bits then some n.toNat else none

def headerOf (format name entries checksum : Json) : Option Header := do
  some ⟨← readCount 32 format, ← name.text?, ← readCount 64 entries, ← checksum.text?⟩

/-- The only field of a name. -/
def theField (name : String) (fields : List (List Char × Json)) : Option Json :=
  match fields.filter fun f => f.1 = name.toList with
  | [f] => some f.2
  | _ => none

/-- A header as an object, in which other fields are passed over, or as an array of its parts. -/
def readHeader (bytes : List UInt8) : Option Header :=
  match Json.read bytes with
  | some (.array [format, name, entries, checksum]) => headerOf format name entries checksum
  | some (.object fields) => do
    let fields ← fields.mapM fun f => (Json.unquote f.1).map fun name => (name, f.2)
    headerOf (← theField "format" fields) (← theField "name" fields)
      (← theField "entries" fields) (← theField "checksum" fields)
  | _ => none

/-- The entries of an index in the bytes of its file, in the order of the file. -/
def decode (name : String) (bytes : List UInt8) : Except Corruption (List Entry) :=
  let (first, rest) := bytes.span (· ≠ Json.byte '\n')
  match rest with
  | [] => .error .missingHeader
  | _ :: body =>
    match readHeader first with
    | none => .error .unreadableHeader
    | some header =>
      -- The body is read last, when the header vouches for its bytes.
      if header.format ≠ formatNumber then .error (.unsupportedFormat header.format)
      else if header.name ≠ name.toList then .error (.foreign (String.ofList header.name))
      else if Checksum.hex body ≠ header.checksum then .error .checksumMismatch
      else match readBody body with
        | none => .error .unreadableEntries
        | some entries =>
          if entries.length ≠ header.entries then
            .error (.wrongCount header.entries entries.length)
          else .ok entries

end Colloquy.Index
