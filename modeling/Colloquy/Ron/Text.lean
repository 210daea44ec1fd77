import Colloquy.Text.Hexadecimal
import Colloquy.Text.Identifier

namespace Colloquy.Ron

/-- The characters with the property Pattern_White_Space. -/
def blankRanges : List (Nat × Nat) :=
  [(0x09, 0x0D), (0x20, 0x20), (0x85, 0x85), (0x200E, 0x200F), (0x2028, 0x2029)]

def isBlank (c : Char) : Bool := Text.inRanges blankRanges c.toNat

inductive Filling where
  | blanks
  | lineComment
  | blockComment (outer : Nat)

/-- What follows blanks and comments; comments in stars may be nested and have to end. -/
def skipFill : Filling → List Char → Option (List Char)
  | .blockComment _, [] => none
  | _, [] => some []
  | .blockComment 0, '*' :: '/' :: rest => skipFill .blanks rest
  | .blockComment (outer + 1), '*' :: '/' :: rest => skipFill (.blockComment outer) rest
  | .blockComment outer, '/' :: '*' :: rest => skipFill (.blockComment (outer + 1)) rest
  | .blockComment outer, _ :: rest => skipFill (.blockComment outer) rest
  | .lineComment, c :: rest => skipFill (if c = '\n' then .blanks else .lineComment) rest
  | .blanks, '/' :: '/' :: rest => skipFill .lineComment rest
  | .blanks, '/' :: '*' :: rest => skipFill (.blockComment 0) rest
  | .blanks, c :: rest =>
    if c = '/' then none else if isBlank c then skipFill .blanks rest else some (c :: rest)

def takeCode (cs : List Char) : Option (Char × List Char) :=
  let digits := cs.takeWhile (· ≠ '}')
  if digits.isEmpty || 6 < digits.length || !digits.all Text.isHexDigit then none
  else
    match cs.drop digits.length with
    | '}' :: rest => (Text.ofCode? (Text.hexNumber digits)).map fun c => (c, rest)
    | _ => none

def takeEscape : List Char → Option (Char × List Char)
  | '"' :: rest => some ('"', rest)
  | '\'' :: rest => some ('\'', rest)
  | '\\' :: rest => some ('\\', rest)
  | 'n' :: rest => some ('\n', rest)
  | 'r' :: rest => some ('\r', rest)
  | 't' :: rest => some ('\t', rest)
  | '0' :: rest => some ('\x00', rest)
  | 'x' :: rest => (Text.codeChar? 2 rest).map fun c => (c, rest.drop 2)
  | 'u' :: '{' :: rest => takeCode rest
  | _ => none

/-- A string of at most `most` characters whose first quote has been taken. -/
def takeString : Nat → List Char → Option (List Char × List Char)
  | 0, _ | _, [] => none
  | _ + 1, '"' :: rest => some ([], rest)
  | most + 1, '\\' :: rest => do
    let (c, rest) ← takeEscape rest
    let (more, rest) ← takeString most rest
    some (c :: more, rest)
  | most + 1, c :: rest => (takeString most rest).map fun t => (c :: t.1, t.2)

/-- A string without escapes, up to a quote with a number of signs after it. -/
def takeRaw (signs : Nat) : List Char → Option (List Char × List Char)
  | [] => none
  | c :: rest =>
    if c = '"' ∧ rest.take signs = List.replicate signs '#' then some ([], rest.drop signs)
    else (takeRaw signs rest).map fun t => (c :: t.1, t.2)

/-- A string without escapes whose first letter has been taken: signs, and a quote after them. -/
def takeRawString (cs : List Char) : Option (List Char × List Char) :=
  let signs := (cs.takeWhile (· = '#')).length
  match cs.drop signs with
  | '"' :: rest => takeRaw signs rest
  | _ => none

def takeChar (cs : List Char) : Option (Char × List Char) := do
  let (c, rest) ← match cs with
    | '\\' :: rest => takeEscape rest
    | c :: rest => some (c, rest)
    | [] => none
  match rest with
  | '\'' :: rest => some (c, rest)
  | _ => none

def beginsName (c : Char) : Bool := c = '_' || Text.isLetter c

def continuesName (c : Char) : Bool := Text.isLetter c || Text.joinsWords c

def isRawChar (c : Char) : Bool := continuesName c || c = '.' || c = '+' || c = '-'

def beginsQuoted : List Char → Bool
  | 'r' :: '"' :: _ | 'r' :: '#' :: '"' :: _ | 'r' :: '#' :: '#' :: _ => true
  | 'b' :: '"' :: _ | 'b' :: '\'' :: _ | 'b' :: 'r' :: '"' :: _ | 'b' :: 'r' :: '#' :: _ => true
  | _ => false

def takeName (cs : List Char) : Option (List Char × List Char) :=
  if beginsQuoted cs then none
  else
    match cs with
    | 'r' :: '#' :: rest =>
      let name := rest.takeWhile isRawChar
      if name.isEmpty then none else some (name, rest.dropWhile isRawChar)
    | c :: _ =>
      if beginsName c then some (cs.takeWhile continuesName, cs.dropWhile continuesName) else none
    | [] => none

/-- The name of a field. A name that would be longer as a raw one is refused. -/
def takeFieldName (cs : List Char) : Option (List Char × List Char) := do
  let (name, rest) ← takeName cs
  match cs with
  | 'r' :: '#' :: _ => some (name, rest)
  | _ => if name.length < (cs.takeWhile isRawChar).length then none else some (name, rest)

end Colloquy.Ron
