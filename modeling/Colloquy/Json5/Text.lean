import Colloquy.Json.Text
import Colloquy.Text.Hexadecimal
import Colloquy.Text.Identifier

namespace Colloquy.Json5

def isLineEnd (c : Char) : Bool := c = '\n' || c = '\r' || c = '\u2028' || c = '\u2029'

/-- The blanks besides line ends: spaces of every width, tabs, form feeds and marks of the byte
order. -/
def blankRanges : List (Nat × Nat) :=
  [(0x09, 0x0D), (0x20, 0x20), (0xA0, 0xA0), (0x1680, 0x1680), (0x2000, 0x200A), (0x2028, 0x2029),
   (0x202F, 0x202F), (0x205F, 0x205F), (0x3000, 0x3000), (0xFEFF, 0xFEFF)]

def isBlank (c : Char) : Bool := Text.inRanges blankRanges c.toNat

inductive Filling where
  | blanks
  | lineComment
  | blockComment

/-- What follows blanks and comments; a comment in stars has to end. -/
def skipFill : Filling → List Char → Option (List Char)
  | .blockComment, [] => none
  | _, [] => some []
  | .blockComment, '*' :: '/' :: rest => skipFill .blanks rest
  | .blockComment, _ :: rest => skipFill .blockComment rest
  | .lineComment, c :: rest => skipFill (if isLineEnd c then .blanks else .lineComment) rest
  | .blanks, '/' :: '/' :: rest => skipFill .lineComment rest
  | .blanks, '/' :: '*' :: rest => skipFill .blockComment rest
  | .blanks, c :: rest => if isBlank c then skipFill .blanks rest else some (c :: rest)

/-- The character that one after a backslash stands for; most stand for themselves. -/
def escaped (c : Char) : Char :=
  if c = 'b' then '\x08'
  else if c = 'f' then '\x0c'
  else if c = 'n' then '\n'
  else if c = 'r' then '\r'
  else if c = 't' then '\t'
  else if c = 'v' then '\x0b'
  else if c = '0' then '\x00'
  else c

/-- The character of a unit of sixteen bits that is written in four digits, and what follows it. A
leading unit needs the escape of a trailing one after it. -/
def takeUnit (cs : List Char) : Option (Char × List Char) := do
  let unit ← Text.hexFront? 4 cs
  let rest := cs.drop 4
  if Json.isTrailing unit then none
  else if Json.isLeading unit then
    match rest with
    | '\\' :: 'u' :: rest =>
      let next ← Text.hexFront? 4 rest
      if Json.isTrailing next then some (Json.pairedChar unit next, rest.drop 4) else none
    | _ => none
  else some (Char.ofNat unit, rest)

/-- What an escape stands for, and what follows it. The end of a line stands for nothing. -/
def takeEscape : List Char → Option (List Char × List Char)
  | [] => none
  | '\r' :: '\n' :: rest => some ([], rest)
  | 'x' :: rest => (Text.codeChar? 2 rest).map fun c => ([c], rest.drop 2)
  | 'u' :: rest => (takeUnit rest).map fun t => ([t.1], t.2)
  | c :: rest =>
    if isLineEnd c then some ([], rest)
    else if '1' ≤ c ∧ c ≤ '9' then none
    else some ([escaped c], rest)

/-- A string of at most `most` characters whose first quote has been taken. -/
def takeString (quote : Char) : Nat → List Char → Option (List Char × List Char)
  | 0, _ | _, [] => none
  | most + 1, '\\' :: rest => do
    let (text, rest) ← takeEscape rest
    let (more, rest) ← takeString quote most rest
    some (text ++ more, rest)
  | most + 1, c :: rest =>
    if c = quote then some ([], rest)
    else if isLineEnd c then none
    else (takeString quote most rest).map fun t => (c :: t.1, t.2)

def beginsIdentifier (c : Char) : Bool := c = '$' || c = '_' || Text.isLetter c

/-- Whether an identifier may go on with a character. Diacritics and two joiners of letters are
among them. -/
def continuesIdentifier (c : Char) : Bool :=
  beginsIdentifier c || Text.joinsWords c || Text.inRanges Text.diacriticRanges c.toNat ||
    c = '\u200c' || c = '\u200d'

/-- What an identifier of at most `most` characters goes on with. -/
def takeIdentifierRest : Nat → List Char → Option (List Char × List Char)
  | 0, cs => some ([], cs)
  | most + 1, '\\' :: 'u' :: rest => do
    let (c, rest) ← takeUnit rest
    let (more, rest) ← takeIdentifierRest most rest
    some (c :: more, rest)
  | _ + 1, [] => some ([], [])
  | most + 1, c :: rest =>
    if continuesIdentifier c then (takeIdentifierRest most rest).map fun t => (c :: t.1, t.2)
    else some ([], c :: rest)

def takeIdentifier (cs : List Char) : Option (List Char × List Char) :=
  match cs with
  | '\\' :: 'u' :: _ => takeIdentifierRest cs.length cs
  | c :: _ => if beginsIdentifier c then takeIdentifierRest cs.length cs else none
  | [] => none

def takeName (cs : List Char) : Option (List Char × List Char) :=
  match cs with
  | '"' :: rest => takeString '"' cs.length rest
  | '\'' :: rest => takeString '\'' cs.length rest
  | _ => takeIdentifier cs

end Colloquy.Json5
