import Colloquy.Database
import Colloquy.Json

/-!
The file of a database: a line that marks it, then a JSON array on a line for each row.
-/

namespace Colloquy.Database
open Colloquy.Json (brackets quote)

def writeMessage (m : Message) : List Char :=
  brackets '[' ']' [Decimal.ofNat m.number.toNat, Decimal.ofNat m.bout.toNat,
    quote m.author.toList, quote m.text.toList, quote (Timestamp.compact m.date)]

def writeParticipant (row : UInt64 × String) : List Char :=
  brackets '[' ']' [Decimal.ofNat row.1.toNat, quote row.2.toList]

def encode (rows : Source.Rows) : List UInt8 :=
  let written := rows.messageRows.map writeMessage ++ rows.participantRows.map writeParticipant
  Disk.databaseMark ++ Json.byte '\n' :: Utf8.encode (written.flatMap (· ++ ['\n']))

def addRow (rows : Source.Rows) (line : List UInt8) : Option Source.Rows := do
  let word (j : Json) : Option UInt64 := j.integer?.bind Decimal.toUInt64?
  let text (j : Json) : Option String := j.text?.map String.ofList
  match ← (← Json.read line).array? with
  | [number, bout, author, content, date] =>
    let m : Message := ⟨← word number, ← word bout, ← text author, ← text content,
      ← date.text?.bind Timestamp.readLenient⟩
    some { rows with messageRows := rows.messageRows ++ [m] }
  | [bout, identity] =>
    let row := (← word bout, ← text identity)
    some { rows with participantRows := rows.participantRows ++ [row] }
  | _ => none

def decode (bytes : List UInt8) : Option Source.Rows :=
  let start := Disk.databaseMark ++ [Json.byte '\n']
  if start.isPrefixOf bytes then
    let lines := (bytes.drop start.length).splitOn (Json.byte '\n')
    (lines.filter fun line => !line.isEmpty).foldlM addRow {}
  else none

def contentOf (bytes : List UInt8) : Disk.Content :=
  match decode bytes with
  | some rows => .database rows
  | none => .bytes bytes

def bytesOf : Disk.Content → List UInt8
  | .bytes bytes => bytes
  | .database rows => encode rows

end Colloquy.Database
