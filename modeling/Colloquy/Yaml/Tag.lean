import Colloquy.Text.Hexadecimal
import Colloquy.Yaml.Cursor

/-!
Tags, which tell the type of a node, and the directives that give the handles in tags a meaning.
-/

namespace Colloquy.Yaml

/-- A tag: a handle, which may stand for another text, and what follows it. -/
structure Tag where
  handle : String
  suffix : String
deriving DecidableEq

def isWord (c : Char) : Bool := c.isAlphanum || c = '_' || c = '-'

def isUri (c : Char) : Bool := isWord c || "#;/?:@&=+$,_.!~*'()[]%".toList.contains c

def isTagChar (c : Char) : Bool := isUri c && !isFlow c && c ≠ '!'

/-- A character that is given by the hexadecimal digits of one byte, or of two, which are read as
one number. -/
def takeEscape : List Char → Option (Char × List Char)
  | '%' :: cs => do
    let first ← Text.hexFront? 2 cs
    if first < 128 then some (Char.ofNat first, cs.drop 2)
    else
      match cs.drop 2 with
      | '%' :: cs =>
        let second ← Text.hexFront? 2 cs
        if first / 32 = 6 ∧ second / 64 = 2 then
          (Text.ofCode? (256 * first + second)).map fun c => (c, cs.drop 2)
        else none
      | _ => none
  | _ => none

/-- The longest text of characters of a kind, of which there are `most` at most. Escapes in it are
resolved. -/
def takeUri (isPart : Char → Bool) : Nat → List Char → Option (List Char × List Char)
  | 0, cs => some ([], cs)
  | _, [] => some ([], [])
  | most + 1, c :: cs =>
    if !isPart c then some ([], c :: cs)
    else do
      let (part, cs) ← if c = '%' then takeEscape (c :: cs) else some (c, cs)
      let (parts, cs) ← takeUri isPart most cs
      some (part :: parts, cs)

/-- An exclamation mark and a word, with another mark behind the word if there is one. -/
def takeHandle : List Char → Option (List Char × List Char)
  | '!' :: cs =>
    let word := cs.takeWhile isWord
    match cs.dropWhile isWord with
    | '!' :: rest => some ('!' :: word ++ ['!'], rest)
    | rest => some ('!' :: word, rest)
  | _ => none

/-- Whether a handle has marks on both sides. Without the second one it is no handle, but belongs to
a tag that has a single mark as its handle. -/
def isClosed (handle : List Char) : Bool := 2 ≤ handle.length && handle.getLast? = some '!'

def Tag.take : List Char → Option (Tag × List Char)
  | '!' :: '<' :: cs => do
    let (uri, rest) ← takeUri isUri cs.length cs
    match rest with
    | '>' :: rest => some (⟨"", String.ofList uri⟩, rest)
    | _ => none
  | cs => do
    let (handle, cs) ← takeHandle cs
    let (suffix, rest) ← takeUri isTagChar cs.length cs
    if isClosed handle then
      if suffix.isEmpty then none else some (⟨String.ofList handle, String.ofList suffix⟩, rest)
    else
      let suffix := handle.drop 1 ++ suffix
      some (if suffix.isEmpty then ⟨"", "!"⟩ else ⟨"!", String.ofList suffix⟩, rest)

inductive Directive where
  | version
  | expansion (handle text : String)
deriving DecidableEq

def takeVersionNumber (cs : List Char) : Option (List Char) :=
  let digits := (cs.takeWhile Char.isDigit).length
  if 0 < digits ∧ digits ≤ 9 then some (cs.drop digits) else none

def skipVersion (cs : List Char) : Option (List Char) := do
  match ← takeVersionNumber cs with
  | '.' :: rest => takeVersionNumber rest
  | _ => none

def takeExpansion : List Char → Option (List Char × List Char)
  | '!' :: cs => (takeUri isUri cs.length cs).map fun t => ('!' :: t.1, t.2)
  | c :: cs => if isTagChar c then takeUri isUri (cs.length + 1) (c :: cs) else none
  | [] => none

def takeMeaning (cs : List Char) : Option (Directive × List Char) := do
  let (handle, cs) ← takeHandle cs
  if !isClosed handle && handle ≠ ['!'] then none
  else
    let (text, rest) ← takeExpansion (cs.dropWhile isBlank)
    if atGap rest then some (.expansion (String.ofList handle) (String.ofList text), rest) else none

/-- The directive at the front of a text, whose sign has been taken. One of an unknown name gives
nothing a meaning. -/
def Directive.take (cs : List Char) : Option (Directive × List Char) :=
  let name := cs.takeWhile isWord
  let rest := cs.dropWhile isWord
  if name.isEmpty || !atGap rest then none
  else if String.ofList name = "YAML" then
    (skipVersion (rest.dropWhile isBlank)).map fun rest => (.version, rest)
  else if String.ofList name = "TAG" then takeMeaning (rest.dropWhile isBlank)
  else some (.expansion "" "", rest.dropWhile fun c => !isBreak c)

end Colloquy.Yaml
