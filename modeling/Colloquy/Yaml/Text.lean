import Colloquy.Text.Hexadecimal
import Colloquy.Yaml.Cursor

/-!
Scalars that go on over several lines are folded: the end of a line counts as a space, and empty
lines count as ends of lines.
-/

namespace Colloquy.Yaml

structure Gap where
  blanks : List Char := []
  ended : Bool := false
  more : Nat := 0

/-- The gap with the end of the line of the first part, before which blanks do not count. -/
def Gap.endLine (g : Gap) : Gap := { g with blanks := [], ended := true }

def Gap.addLine (g : Gap) : Gap := { g with more := g.more + 1 }

def Gap.folded (g : Gap) : List Char :=
  if g.ended then if g.more = 0 then [' '] else List.replicate g.more '\n' else g.blanks

/-! Plain scalars. -/

/-- Skips a gap. A tab that stands for indentation has to be on a line of its own. -/
def skipGap (indent : Int) : Nat → Cursor → Gap → Option (Cursor × Gap)
  | 0, c, g => some (c, g)
  | fuel + 1, c, g =>
    match c.rest with
    | [] => some (c, g)
    | ch :: _ =>
      if isBreak ch then
        skipGap indent fuel c.passBreak
          (if c.leading then g.addLine else g.endLine)
      else if !isBlank ch then some (c, g)
      else if !c.leading then skipGap indent fuel (c.pass 1) { g with blanks := g.blanks ++ [ch] }
      else if ch = '\t' ∧ (c.column : Int) < indent then
        match c.skipBlanks with
        | some (_, c) => if atLineEnd c.rest then skipGap indent fuel c g else none
        | none => none
      else skipGap indent fuel (c.pass 1) g

/-- The characters at the front that belong to a plain scalar. A colon ends it before a gap, and
between brackets so do their characters. -/
def takeRun (inFlow : Bool) : List Char → List Char
  | [] => []
  | c :: rest =>
    if isBlank c || isBreak c || (inFlow && isFlow c) then []
    else if c = ':' && (atGap rest || (inFlow && rest.head?.any isFlow)) then []
    else c :: takeRun inFlow rest

/-- A plain scalar after the part that was taken already and a gap. It ends at a comment, at a mark
of a document, and on a line that is indented less than it has to be. -/
def takePlain (inFlow : Bool) (indent : Int) :
    Nat → Cursor → Gap → List Char → Option (List Char × Cursor)
  | 0, _, _, _ => none
  | fuel + 1, c, g, text =>
    if (c.column = 0 && isDocumentMark c.rest) || c.rest.head? = some '#' then some (text, c)
    else if inFlow && c.rest.head? = some '-' && (c.rest.drop 1).head?.any isFlow then none
    else
      let run := takeRun inFlow c.rest
      let text := if run.isEmpty then text else text ++ g.folded ++ run
      let g := if run.isEmpty then g else {}
      let c := if run.isEmpty then c else c.advance run.length
      if c.rest.isEmpty || !atGap c.rest then some (text, c)
      else
        match skipGap indent (c.rest.length + 1) c g with
        | none => none
        | some (c, g) =>
          if !inFlow && (c.column : Int) < indent then some (text, c)
          else takePlain inFlow indent fuel c g text

/-! Quoted scalars. -/

/-- The character of a code of some digits, and their number with the letter before them. -/
def codeEscape (digits : Nat) (cs : List Char) : Option (Char × Nat) :=
  (Text.codeChar? digits cs).map fun c => (c, digits + 1)

/-- The character that an escape stands for, and how many characters there are after the
backslash. -/
def escape? : List Char → Option (Char × Nat)
  | 'x' :: rest => codeEscape 2 rest
  | 'u' :: rest => codeEscape 4 rest
  | 'U' :: rest => codeEscape 8 rest
  | e :: _ =>
    let plain := [('0', '\x00'), ('a', '\x07'), ('b', '\x08'), ('t', '\t'), ('\t', '\t'),
      ('n', '\n'), ('v', '\x0b'), ('f', '\x0c'), ('r', '\r'), ('e', '\x1b'), (' ', ' '), ('"', '"'),
      ('/', '/'), ('\\', '\\'), ('N', '\u0085'), ('_', '\u00a0'), ('L', '\u2028'), ('P', '\u2029')]
    (plain.find? fun entry => entry.1 = e).map fun entry => (entry.2, 1)
  | [] => none

/-- The character at the front of a quoted scalar, and how many characters it is written in. A
single quote between single quotes is written twice; between double quotes a backslash begins an
escape. -/
def quotedChar? (quote : Char) : List Char → Option (Char × Nat)
  | [] => none
  | c :: rest =>
    if c = '\'' ∧ quote = '\'' then some (c, 2)
    else if c = '\\' ∧ quote = '"' then (escape? rest).map fun e => (e.1, e.2 + 1)
    else some (c, 1)

/-- A part of a quoted scalar without blanks, up to a gap, the quote that ends the scalar, or an
escaped end of a line. Tells whether it was the latter. -/
def takeQuotedRun (quote : Char) : Nat → Cursor → Option (List Char × Bool × Cursor)
  | 0, _ => none
  | fuel + 1, c =>
    let isDoubled := quote = '\'' && c.rest.take 2 = ['\'', '\'']
    let isEscape := quote = '"' && c.rest.head? = some '\\'
    if atGap c.rest || (c.rest.head? = some quote && !isDoubled) then some ([], false, c)
    else if isEscape && (c.rest.drop 1).head?.any isBreak then
      some ([], true, (c.advance 1).passBreak)
    else do
      let (ch, length) ← quotedChar? quote c.rest
      let (text, next) ← takeQuotedRun quote fuel (c.advance length)
      some (ch :: text, next)

/-- Skips a gap in a quoted scalar. Blanks at the beginning of a line do not count; a tab must not
stand there for indentation. -/
def skipQuotedGap (indent : Int) : Nat → Bool → Cursor → Gap → Option (Cursor × Gap)
  | 0, _, c, g => some (c, g)
  | fuel + 1, atStart, c, g =>
    match c.rest with
    | [] => some (c, g)
    | ch :: _ =>
      if isBreak ch then
        skipQuotedGap indent fuel true c.passBreak
          (if atStart then g.addLine else g.endLine)
      else if !isBlank ch then some (c, g)
      else if !atStart then
        skipQuotedGap indent fuel atStart (c.pass 1) { g with blanks := g.blanks ++ [ch] }
      else if ch = '\t' ∧ (c.column : Int) < indent then none
      else skipQuotedGap indent fuel atStart (c.pass 1) g

/-- What a gap in a quoted scalar stands for, after an escaped end of a line or not. -/
def Gap.quoted (g : Gap) (escaped : Bool) : List Char :=
  if escaped then List.replicate g.more '\n' else g.folded

def takeQuoted (quote : Char) (indent : Int) : Nat → Cursor → Option (List Char × Cursor)
  | 0, _ => none
  | fuel + 1, c =>
    if (c.column = 0 && isDocumentMark c.rest) || (c.column : Int) < indent then none
    else do
      let (run, escaped, c) ← takeQuotedRun quote (c.rest.length + 1) c
      if c.rest.head? = some quote then some (run, c.advance 1)
      else
        let (c, g) ← skipQuotedGap indent (c.rest.length + 1) escaped c {}
        let (more, c) ← takeQuoted quote indent fuel c
        some (run ++ g.quoted escaped ++ more, c)

/-! Blocks. -/

inductive Chomping where
  | clip
  | strip
  | keep
deriving DecidableEq

/-- The signs after the mark of a block: how it is chomped, how much it is indented if that is told,
and how many characters there are. -/
def blockSigns (cs : List Char) : Option (Chomping × Nat × Nat) :=
  let chomping? (c : Char) : Option Chomping :=
    if c = '+' then some .keep else if c = '-' then some .strip else none
  let digit? (c : Char) : Option Nat := if c.isDigit then some (c.toNat - '0'.toNat) else none
  let signs := match cs.head?.bind chomping?, cs.head?.bind digit? with
    | some chomping, _ =>
      match (cs.drop 1).head?.bind digit? with
      | some n => (chomping, some n, 2)
      | none => (chomping, none, 1)
    | none, some n =>
      match (cs.drop 1).head?.bind chomping? with
      | some chomping => (chomping, some n, 2)
      | none => (.clip, some n, 1)
    | none, none => (.clip, none, 0)
  match signs with
  | (_, some 0, _) => none
  | (chomping, n, length) => some (chomping, n.getD 0, length)

/-- Skips empty lines and spaces up to a column. Tells how many lines ended. -/
def skipIndent (indent : Nat) : Nat → Cursor → Nat × Cursor
  | 0, c => (0, c)
  | fuel + 1, c =>
    let spaces := ((c.rest.take (indent - c.column)).takeWhile (· = ' ')).length
    let c := c.pass spaces
    if c.rest.head?.any isBreak then
      let (ends, c) := skipIndent indent fuel c.passBreak
      (ends + 1, c)
    else (0, c)

/-- Skips empty lines and spaces. Tells how many lines ended and the greatest column reached. -/
def findIndent : Nat → Cursor → Nat × Nat × Cursor
  | 0, c => (0, c.column, c)
  | fuel + 1, c =>
    let c := c.pass (c.rest.takeWhile (· = ' ')).length
    if c.rest.head?.any isBreak then
      let (ends, column, after) := findIndent fuel c.passBreak
      (ends + 1, max column c.column, after)
    else (0, c.column, c)

/-- The lines of a block that are indented up to a column. `ended` and `ends` tell whether a line
has ended before and how many empty lines have ended since; `wasBlank` tells whether the last line
began with a blank, for such lines are not folded. Comes with the line ends after the last line. -/
def takeLines (literal : Bool) (indent : Nat) :
    Nat → Cursor → (ended : Bool) → (ends : Nat) → (wasBlank : Bool) →
      List Char × Bool × Nat × Cursor
  | 0, c, ended, ends, _ => ([], ended, ends, c)
  | fuel + 1, c, ended, ends, wasBlank =>
    if c.column ≠ indent || c.rest.isEmpty || (indent = 0 && isMark '.' c.rest) then
      ([], ended, ends, c)
    else
      let isBlank := c.rest.head?.any isBlank
      let gap := if !literal && ended && !wasBlank && !isBlank then
          if ends = 0 then [' '] else List.replicate ends '\n'
        else List.replicate ((if ended then 1 else 0) + ends) '\n'
      let line := c.rest.takeWhile fun ch => !isBreak ch
      let c := c.pass line.length
      if c.rest.isEmpty then (gap ++ line, false, 0, c)
      else
        let (ends, c) := skipIndent indent (c.rest.length + 1) c.passBreak
        let (more, tail) := takeLines literal indent fuel c true ends isBlank
        (gap ++ line ++ more, tail)

def emptyBlock (chomping : Chomping) (hasLine : Bool) (ends : Nat) : List Char :=
  if chomping = .strip || !hasLine then []
  else if chomping = .keep then List.replicate (max ends 1) '\n'
  else ['\n']

def takeBlock (literal : Bool) (outer : Int) (c : Cursor) : Option (List Char × Cursor) := do
  let (chomping, increment, length) ← blockSigns c.rest
  let (_, c) ← (c.advance length).skipBlanks
  if !atLineEnd c.rest then none
  else
    let hasLine := !c.rest.isEmpty
    let c := c.passBreak
    if c.rest.head? = some '\t' then none
    else
      let (ends, indent, c) :=
        if increment = 0 then
          let (ends, column, c) := findIndent (c.rest.length + 1) c
          (ends, max column (max (outer + 1).toNat (if 0 < outer then 1 else 0)), c)
        else
          let indent := (max outer 0).toNat + increment
          let (ends, c) := skipIndent indent (c.rest.length + 1) c
          (ends, indent, c)
      if c.rest.isEmpty then some (emptyBlock chomping hasLine ends, c)
      else if c.column < indent ∧ outer < c.column then none
      else
        let (text, ended, ends, c) :=
          takeLines literal indent (c.rest.length + 1) c false ends false
        let last := if ended then ['\n'] else []
        let closing := if c.rest.isEmpty && max indent 1 ≤ c.column then ['\n'] else []
        let kept := if chomping = .keep then List.replicate ends '\n' else []
        some (if chomping = .strip then text else text ++ last ++ closing ++ kept, c)

end Colloquy.Yaml
