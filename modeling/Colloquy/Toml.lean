import Colloquy.Toml.Text
import Colloquy.Toml.Tree

/-!
TOML texts as trees. The keys of a document belong to the table of the last header.
-/

namespace Colloquy.Toml

/-- The items of an array, of which there are `most` at most, and its closing bracket. -/
def takeItems (take : List Char → Option (Toml × List Char)) :
    Nat → List Char → Option (List Toml × List Char)
  | 0, _ => none
  | most + 1, cs =>
    match skipFill false cs with
    | ']' :: rest => some ([], rest)
    | cs => do
      let (item, rest) ← take cs
      match skipFill false rest with
      | ']' :: rest => some ([item], rest)
      | ',' :: rest =>
        let (items, rest) ← takeItems take most rest
        some (item :: items, rest)
      | _ => none

def takeField (take : List Char → Option (Toml × List Char)) (cs : List Char) :
    Option ((List String × Toml) × List Char) := do
  let (key, rest) ← takeKey cs
  match rest with
  | '=' :: rest =>
    let (value, rest) ← take (skipSpaces rest)
    some ((key, value), rest)
  | _ => none

/-- The fields of a table in braces, of which there are `most` at most, and its closing brace. -/
def takeFields (take : List Char → Option (Toml × List Char)) :
    Nat → Toml → List Char → Option (Toml × List Char)
  | 0, _, _ => none
  | most + 1, before, cs =>
    match skipFill false cs with
    | '}' :: rest => some (before, rest)
    | cs => do
      let ((key, value), rest) ← takeField take cs
      let after ← addKey key value before
      match skipFill false rest with
      | '}' :: rest => some (after, rest)
      | ',' :: rest => takeFields take most after rest
      | _ => none

def takeValue : Nat → List Char → Option (Toml × List Char)
  | _, '"' :: rest => (takeString '"' rest).map fun t => (.scalar (.text t.1), t.2)
  | _, '\'' :: rest => (takeString '\'' rest).map fun t => (.scalar (.text t.1), t.2)
  | 0, '[' :: _ | 0, '{' :: _ => none
  | depth + 1, '[' :: rest =>
    (takeItems (takeValue depth) rest.length rest).map fun t => (.array t.1, t.2)
  | depth + 1, '{' :: rest => takeFields (takeValue depth) rest.length (.table .braces []) rest
  | _, cs => (takeScalar cs).map fun t => (.scalar t.1, t.2)

structure Document where
  root : Toml
  header : List String

namespace Document

def empty : Document := ⟨.table .header [], []⟩

def add (d : Document) (key : List String) (value : Toml) : Option Document :=
  (alter false (addKey key value) d.header d.root).map fun root => { d with root }

def takeHeader (close : List Char) (cs : List Char) : Option (List String × List Char) := do
  let (key, rest) ← takeKey cs
  if close.isPrefixOf rest then some (key, rest.drop close.length) else none

def takeStatement (d : Document) (cs : List Char) : Option (Document × List Char) :=
  match cs with
  | '[' :: '[' :: rest => do
    let (key, rest) ← takeHeader [']', ']'] rest
    let root ← addHeader defineElement key d.root
    some (⟨root, key⟩, rest)
  | '[' :: rest => do
    let (key, rest) ← takeHeader [']'] rest
    let root ← addHeader defineTable key d.root
    some (⟨root, key⟩, rest)
  | [] | '#' :: _ | '\n' :: _ | '\r' :: _ => some (d, cs)
  | _ => do
    let ((key, value), rest) ← takeField (takeValue depthLimit) cs
    let d ← d.add key value
    some (d, rest)

/-- Takes all statements of a text of `most` lines at most. -/
def takeAll : Nat → Document → List Char → Option Document
  | 0, _, _ => none
  | most + 1, d, cs => do
    let (d, rest) ← d.takeStatement (skipSpaces cs)
    match skipComment (skipSpaces rest) with
    | [] => some d
    | rest => takeAll most d (← afterLineEnd? rest)

end Document

def read (cs : List Char) : Option Toml :=
  (Document.empty.takeAll (cs.length + 1) cs).map Document.root

end Colloquy.Toml
