import Colloquy.Ini
import Colloquy.Settings.Item
import Colloquy.Utf8

namespace Colloquy.Settings
open Colloquy.Decimal

inductive Format where
  | toml
  | json
  | yaml
  | ini
  | ron
  | json5
deriving DecidableEq

namespace Format

/-- The extensions of files with their formats, in the order in which they are tried. -/
def extensions : List (String × Format) :=
  [("toml", toml), ("json", json), ("yaml", yaml), ("yml", yaml), ("ini", ini), ("ron", ron),
    ("json5", json5)]

def ofExtension? (s : String) : Option Format :=
  (extensions.find? fun entry => entry.1 = s).map Prod.snd

def dropMark : List Char → List Char
  | '\uFEFF' :: rest => rest
  | cs => cs

def readToml (cs : List Char) : Option Layer :=
  match Toml.read (dropMark cs) with
  | some (.table _ fields) => some (fields.map fun field => (field.1, Item.ofToml field.2))
  | _ => none

def nestingLimit : Nat := 127

mutual
/-- Whether a tree is nested up to a depth, all its texts hold whole characters and all its
numbers are finite. -/
def isSound (depth : Nat) : Json → Bool
  | .null | .boolean _ => true
  | .number written => (Json.number? written).isSome
  | .string written => (Json.unquote written).isSome
  | .array items => depth ≠ 0 && areSound (depth - 1) items
  | .object fields => depth ≠ 0 && areSoundFields (depth - 1) fields
def areSound (depth : Nat) : List Json → Bool
  | [] => true
  | item :: items => isSound depth item && areSound depth items
def areSoundFields (depth : Nat) : List (List UInt8 × Json) → Bool
  | [] => true
  | (name, value) :: fields =>
    (Json.unquote name).isSome && isSound depth value && areSoundFields depth fields
end

def ofJsonField (field : List UInt8 × Json) : Option (String × Item) := do
  some (String.ofList (← Json.unquote field.1), ← Item.ofJson field.2)

def readJson (cs : List Char) : Option Layer :=
  match Json.read (Utf8.encode cs) with
  | some (.object fields) =>
    if isSound nestingLimit (.object fields) then fields.mapM ofJsonField else none
  | _ => none

mutual
def isReadable : Yaml → Bool
  | .scalar (.real written) => (readBinary written.toList).isSome
  | .unfit | .scalar _ => true
  | .list items => areReadable items
  | .map entries => areReadableEntries entries
def areReadable : List Yaml → Bool
  | [] => true
  | item :: items => isReadable item && areReadable items
def areReadableEntries : List (Yaml.Scalar × Yaml) → Bool
  | [] => true
  | (_, value) :: entries => isReadable value && areReadableEntries entries
end

def ofYamlEntry (entry : Yaml.Scalar × Yaml) : Option (String × Item) := do
  some (← entry.1.name?, ← Item.ofYaml entry.2)

def readYaml (cs : List Char) : Option Layer :=
  match Yaml.read cs with
  | some (.map entries) =>
    if areReadableEntries entries then entries.mapM ofYamlEntry else none
  | _ => none

def readIni (cs : List Char) : Option Layer :=
  (Ini.read cs).map fun statements =>
    let headers := (statements.dropWhile Ini.Statement.isEntry).filter fun s => !s.isEntry
    (statements.takeWhile Ini.Statement.isEntry ++ headers).map fun s => match s with
      | .entry name value => (name, .text value)
      | .header name => (name, .group)

def readRon (cs : List Char) : Option Layer :=
  match (Ron.read cs).map Ron.content with
  | some (.map entries) => some (entries.map fun entry => (entry.1, Item.ofRon entry.2))
  | _ => none

def readJson5 (cs : List Char) : Option Layer :=
  match Json5.read cs with
  | some (.object fields) => some (fields.map fun field => (field.1, Item.ofJson5 field.2))
  | _ => none

def read (format : Format) (cs : List Char) : Option Layer :=
  match format with
  | toml => readToml cs
  | json => readJson cs
  | yaml => readYaml cs
  | ini => readIni cs
  | ron => readRon cs
  | json5 => readJson5 cs

end Format

end Colloquy.Settings
