/-!
A place in a YAML text, with what it takes to judge indentation there.
-/

namespace Colloquy.Yaml

def isBlank (c : Char) : Bool := c = ' ' || c = '\t'

def isBreak (c : Char) : Bool := c = '\n' || c = '\r'

def isFlow (c : Char) : Bool := c = ',' || c = '[' || c = ']' || c = '{' || c = '}'

def atLineEnd (cs : List Char) : Bool := cs.head?.all isBreak

def atGap (cs : List Char) : Bool := cs.head?.all fun c => isBlank c || isBreak c

/-- Whether a line of three equal characters, or what begins one, is at the front of a text. -/
def isMark (c : Char) (cs : List Char) : Bool :=
  cs.take 3 = [c, c, c] && atGap (cs.drop 3)

def isDocumentMark (cs : List Char) : Bool := isMark '-' cs || isMark '.' cs

structure Cursor where
  rest : List Char
  index : Nat := 0
  line : Nat := 0
  column : Nat := 0
  /-- Whether only blanks stand before the place on its line. -/
  leading : Bool := true

namespace Cursor

def pass (c : Cursor) (n : Nat) : Cursor :=
  { c with rest := c.rest.drop n, index := c.index + n, column := c.column + n }

def advance (c : Cursor) (n : Nat) : Cursor := { c.pass n with leading := false }

def passBreak (c : Cursor) : Cursor :=
  match c.rest with
  | '\r' :: '\n' :: rest => ⟨rest, c.index + 2, c.line + 1, 0, true⟩
  | '\r' :: rest | '\n' :: rest => ⟨rest, c.index + 1, c.line + 1, 0, true⟩
  | _ => c

def toBreak (c : Cursor) : Cursor := c.advance (c.rest.takeWhile fun ch => !isBreak ch).length

/-- Skips blanks and a comment after them. Tells the blanks, without which there is no comment. -/
def skipBlanks (c : Cursor) : Option (List Char × Cursor) :=
  let blanks := c.rest.takeWhile isBlank
  let c := c.pass blanks.length
  if c.rest.head? = some '#' then if blanks.isEmpty then none else some (blanks, c.toBreak)
  else some (blanks, c)

end Cursor

end Colloquy.Yaml
