import Colloquy.Text.Blank
import Colloquy.Text.Hexadecimal

/-!
INI texts as lists of statements. The name before a sign runs on over the ends of lines; a value
ends with its line, quoted parts apart.
-/

namespace Colloquy.Ini

inductive Statement where
  /-- The statements up to the next header are in the section of a name. -/
  | header (name : String)
  | entry (name value : String)
deriving DecidableEq

def Statement.isEntry : Statement → Bool
  | header _ => false
  | entry _ _ => true

/-- The character that one after a backslash stands for; most stand for themselves. -/
def escaped (c : Char) : Char :=
  if c = '0' then '\x00'
  else if c = 'a' then '\x07'
  else if c = 'b' then '\x08'
  else if c = 't' then '\t'
  else if c = 'r' then '\r'
  else if c = 'n' then '\n'
  else c

/-- The character of a code that is written in four characters, the first of which may be a plus. -/
def codeChar? : List Char → Option Char
  | '+' :: digits => Text.codeChar? 3 digits
  | digits => Text.codeChar? 4 digits

/-- The text up to a character that ends it, and what follows from that character on. Only some
texts may go on to the end of everything. -/
def takeUntil (isEnd : Char → Bool) (mayRunOut : Bool) :
    List Char → Option (List Char × List Char)
  | [] => if mayRunOut then some ([], []) else none
  | '\\' :: 'x' :: a :: b :: c :: d :: rest => do
    let e ← codeChar? [a, b, c, d]
    let (text, rest) ← takeUntil isEnd mayRunOut rest
    some (e :: text, rest)
  | '\\' :: '\n' :: rest => takeUntil isEnd mayRunOut rest
  | ['\\'] => none
  | '\\' :: c :: rest =>
    if c = 'x' then none
    else (takeUntil isEnd mayRunOut rest).map fun t => (escaped c :: t.1, t.2)
  | c :: rest =>
    if isEnd c then some ([], c :: rest)
    else (takeUntil isEnd mayRunOut rest).map fun t => (c :: t.1, t.2)

def isLineEnd (c : Char) : Bool := c = '\n' || c = '\r'

/-- A value of at most `most` parts, and what follows it. A part without quotes goes on to the end
of the line; blanks at its end do not belong to it, nor do those at its front if it is the first. -/
def takeValue (isFirst : Bool) : Nat → List Char → Option (List Char × List Char)
  | 0, _ => none
  | most + 1, '"' :: rest => takeQuoted most '"' rest
  | most + 1, '\'' :: rest => takeQuoted most '\'' rest
  | _ + 1, cs =>
    (takeUntil isLineEnd true cs).map fun t =>
      (if isFirst then Text.trim t.1 else Text.trimRight t.1, t.2)
where
  takeQuoted (most : Nat) (quote : Char) (cs : List Char) : Option (List Char × List Char) := do
    let (text, rest) ← takeUntil (· = quote) false cs
    let (more, rest) ← takeValue false most (rest.drop 1)
    some (text ++ more, rest)

def skipBlanks (atStart : Bool) : List Char → Bool × List Char
  | [] => (atStart, [])
  | c :: rest => if Text.isBlank c then skipBlanks (c = '\n') rest else (atStart, c :: rest)

def isSign (c : Char) : Bool := c = '=' || c = ':'

/-- A name, the sign after it and its value. A name that nothing follows is no statement. -/
def takeEntry (cs : List Char) : Option (List Statement × List Char) := do
  let (name, rest) ← takeUntil isSign true cs
  match rest with
  | [] => some ([], [])
  | _ :: rest =>
    let name := Text.trim name
    if name.isEmpty then none
    else
      let rest := rest.dropWhile fun c => Text.isBlank c && !isLineEnd c
      let (value, rest) ← takeValue true (rest.length + 1) rest
      some ([.entry (String.ofList name) (String.ofList value)], rest)

def takeHeader (cs : List Char) : Option (List Statement × List Char) :=
  (takeUntil (· = ']') false cs).map fun t =>
    ([.header (String.ofList (Text.trim t.1))], t.2.drop 1)

/-- A remark goes on to the end of its line; only at the beginning of a line is there one. -/
def isRemark (c : Char) : Bool := c = ';' || c = '#'

/-- At most `most` statements of a text. -/
def takeAll : Nat → Bool → List Char → Option (List Statement)
  | 0, _, _ => none
  | most + 1, atStart, cs =>
    match skipBlanks atStart cs with
    | (_, []) => some []
    | (atStart, c :: rest) => do
      if isRemark c then
        if atStart then takeAll most true ((rest.dropWhile (· ≠ '\n')).drop 1) else none
      else
        let (statements, rest) ← if c = '[' then takeHeader rest else takeEntry (c :: rest)
        let more ← takeAll most false rest
        some (statements ++ more)

def read (cs : List Char) : Option (List Statement) := takeAll (cs.length + 1) true cs

end Colloquy.Ini
