import Colloquy.Yaml.Text
import Colloquy.Yaml.Tag

/-!
YAML texts as lists of tokens. Indentation tells where a list or a map without brackets begins and
ends, and a colon tells that the node before it is a key.
-/

namespace Colloquy.Yaml

inductive Token where
  | directive (d : Directive)
  | documentStart
  | documentEnd
  | blockList
  | blockMap
  | blockEnd
  | listStart
  | listEnd
  | mapStart
  | mapEnd
  | item
  | comma
  | key
  | value
  | anchor (name : String)
  | repeated (name : String)
  | tag (t : Tag)
  | scalar (isPlain : Bool) (text : String)
deriving DecidableEq

structure KeyPlace where
  required : Bool
  number : Nat
  index : Nat
  line : Nat
  column : Nat

structure Level where
  indent : Int
  /-- Whether a list or a map has begun where the next indentation in it begins. -/
  holdsBlock : Bool

structure Lexer where
  cursor : Cursor
  /-- The tokens so far, from the last to the first. -/
  tokens : List Token := []
  indent : Int := -1
  /-- What the indentation is inside of, from the inside to the outside. -/
  levels : List Level := []
  keyAllowed : Bool := true
  /-- Where there may be a key, for each pair of brackets from the inside to the outside, and for
  what is around them all. -/
  keys : List (Option KeyPlace) := [none]
  /-- The place of a colon that needs no gap after it, since brackets or quotes stand before it. -/
  adjacentAt : Nat := 0
  inMap : Bool := false
  /-- For each list in brackets, from the inside to the outside, whether one of its items is a map
  without braces that has not ended. -/
  inItem : List Bool := []

namespace Lexer

def depth (l : Lexer) : Nat := l.keys.length - 1

def inFlow (l : Lexer) : Bool := l.depth ≠ 0

def inBlock (l : Lexer) : Bool := l.levels.head?.any Level.holdsBlock

def push (l : Lexer) (t : Token) : Lexer := { l with tokens := t :: l.tokens }

def insert (l : Lexer) (number : Nat) (t : Token) : Lexer :=
  let later := l.tokens.length - number
  { l with tokens := l.tokens.take later ++ t :: l.tokens.drop later }

def advance (l : Lexer) (n : Nat) : Lexer := { l with cursor := l.cursor.advance n }

def advanceTo (l : Lexer) (rest : List Char) : Lexer :=
  l.advance (l.cursor.rest.length - rest.length)

def allowKey (l : Lexer) (allowed : Bool) : Lexer := { l with keyAllowed := allowed }

def skipBlanks (l : Lexer) : Option (List Char × Lexer) :=
  l.cursor.skipBlanks.map fun t => (t.1, { l with cursor := t.2 })

def passBreak (l : Lexer) : Lexer :=
  { l with cursor := l.cursor.passBreak, keyAllowed := l.keyAllowed || !l.inFlow }

/-- Skips all blanks, ends of lines and comments. A line in a list or a map must not be indented by
a tab. -/
def skipToToken : Nat → Lexer → Option Lexer
  | 0, l => some l
  | fuel + 1, l =>
    let c := l.cursor
    match c.rest with
    | [] => some l
    | ch :: _ =>
      if isBreak ch then skipToToken fuel l.passBreak
      else if ch = '#' then skipToToken fuel { l with cursor := c.toBreak }
      else if !isBlank ch then some l
      else if ch = '\t' ∧ !l.levels.isEmpty ∧ c.leading ∧ c.column < l.indent then
        match l.skipBlanks with
        | some (_, l) => if atLineEnd l.cursor.rest then skipToToken fuel l else none
        | none => none
      else skipToToken fuel { l with cursor := c.pass 1 }

/-! Keys. -/

def setKey (l : Lexer) (key : Option KeyPlace) : Lexer := { l with keys := key :: l.keys.drop 1 }

def markKey (l : Lexer) : Lexer :=
  let c := l.cursor
  if l.keyAllowed then
    let required := !l.inFlow && l.indent = c.column && l.inBlock
    l.setKey (some ⟨required, l.tokens.length, c.index, c.line, c.column⟩)
  else l

def dropKey (l : Lexer) : Option Lexer :=
  match l.keys.head? with
  | some (some key) => if key.required then none else some (l.setKey none)
  | _ => some l

/-- Whether a place is too far from the cursor for a key to reach from it to here. -/
def isFar (l : Lexer) (key : KeyPlace) : Bool :=
  key.line < l.cursor.line || key.index + 1024 < l.cursor.index

/-- Forgets the place of a key that is too far away, if there are no brackets. -/
def dropFarKey (l : Lexer) : Option Lexer :=
  match l.inFlow, l.keys.head? with
  | false, some (some key) => if l.isFar key then l.dropKey else some l
  | _, _ => some l

/-! Indentation. -/

/-- Leaves the indentations beyond a column: what is left, and how many lists and maps end. -/
def leave (column indent : Int) : List Level → Int × List Level × Nat
  | [] => (indent, [], 0)
  | level :: levels =>
    if column < indent then
      let (outer, left, ends) := leave column level.indent levels
      (outer, left, if level.holdsBlock then ends + 1 else ends)
    else (indent, level :: levels, 0)

def closeBlocks (l : Lexer) (column : Int) : Lexer :=
  if l.inFlow then l
  else
    let (indent, levels, ends) := leave column l.indent l.levels
    { l with indent, levels, tokens := List.replicate ends .blockEnd ++ l.tokens }

def leaveStep (l : Lexer) : Lexer :=
  match l.levels with
  | level :: levels =>
    if level.holdsBlock then l else { l with indent := level.indent, levels }
  | [] => l

def enterStep (l : Lexer) : Lexer :=
  if !l.inFlow && l.inBlock then
    { l with levels := ⟨l.indent, false⟩ :: l.levels, indent := l.indent + 1 }
  else l

/-- Begins a list or a map at a column, behind a number of tokens, unless the column is that of one
already. -/
def openBlock (l : Lexer) (column : Nat) (number : Nat) (t : Token) : Lexer :=
  if l.inFlow then l
  else
    let l := if l.indent ≤ column then l.leaveStep else l
    if l.indent < column then
      ({ l with levels := ⟨l.indent, true⟩ :: l.levels, indent := column }).insert number t
    else l

/-! The signs of lists and maps. -/

def endItem (l : Lexer) : Lexer :=
  match l.inItem with
  | true :: outer => { l with inItem := false :: outer, inMap := false }.push .mapEnd
  | _ => l

def takeOpening (l : Lexer) (t : Token) : Option Lexer := do
  let l := l.markKey.enterStep
  if 255 ≤ l.depth then none
  else
    let l := ({ l with keys := none :: l.keys, keyAllowed := true }).advance 1
    let l := match t with
      | .mapStart => { l with inMap := true }
      | _ => { l with inItem := false :: l.inItem }
    let (_, l) ← l.skipBlanks
    some (l.push t)

def takeClosing (l : Lexer) (t : Token) : Option Lexer := do
  let l ← l.dropKey
  let l := { l with keys := if l.inFlow then l.keys.drop 1 else l.keys, keyAllowed := false }
  let l := match t with
    | .listEnd => { l.endItem with inItem := l.inItem.drop 1 }
    | _ => l
  let (_, l) ← (l.advance 1).skipBlanks
  some ({ l with adjacentAt := if l.inFlow then l.cursor.index else l.adjacentAt }.push t)

def takeComma (l : Lexer) : Option Lexer := do
  let l := ((← l.dropKey).allowKey true).endItem
  let (_, l) ← (l.advance 1).skipBlanks
  some (l.push .comma)

def takeDash (l : Lexer) : Option Lexer :=
  if l.inFlow || !l.keyAllowed then none
  else do
    let l := l.openBlock l.cursor.column l.tokens.length .blockList
    let (blanks, l) ← (l.advance 1).skipBlanks
    let rest := l.cursor.rest
    if '\t' ∈ blanks ∧ rest.head? = some '-' ∧ atGap (rest.drop 1) then none
    else
      let l := if rest.head?.any fun c => isBreak c || isFlow c then l.enterStep else l
      some (((← l.dropKey).allowKey true).push .item)

/-- Skips spaces, ends of lines and comments. Tells whether there are any but comments. -/
def skipSpaces : Nat → Lexer → Bool × Lexer
  | 0, l => (false, l)
  | fuel + 1, l =>
    match l.cursor.rest with
    | ' ' :: _ => (true, (skipSpaces fuel { l with cursor := l.cursor.pass 1 }).2)
    | '\n' :: _ | '\r' :: _ => (true, (skipSpaces fuel l.passBreak).2)
    | '#' :: _ => skipSpaces fuel { l with cursor := l.cursor.toBreak }
    | _ => (false, l)

def takeKey (l : Lexer) : Option Lexer :=
  if !l.inFlow && !l.keyAllowed then none
  else do
    let l := if l.inFlow then { l with inMap := true }
      else l.openBlock l.cursor.column l.tokens.length .blockMap
    let l := ((← l.dropKey).allowKey !l.inFlow).advance 1
    let (isSpaced, l) := skipSpaces l.cursor.rest.length l
    if !isSpaced || l.cursor.rest.head? = some '\t' then none else some (l.push .key)

/-- Skips the blanks after a colon if a tab is the first of them. Without a space no word may
follow. -/
def skipValueTabs (l : Lexer) : Option Lexer :=
  if l.cursor.rest.head? = some '\t' then
    match l.skipBlanks with
    | some (blanks, l) =>
      if ' ' ∉ blanks ∧ l.cursor.rest.head?.any isWord then none else some l
    | none => none
  else some l

/-- Takes the colon before a value. What may be a key before it is one. -/
def takeColon (l : Lexer) : Option Lexer := do
  let line := l.cursor.line
  let column := l.cursor.column
  let beginsMap := !l.inItem.isEmpty && !l.inMap
  let l := if beginsMap then { l with inItem := true :: l.inItem.drop 1 } else l
  let l ← (l.advance 1).skipValueTabs
  match l.keys.head? with
  | some (some key) =>
    let l := l.insert key.number .key
    -- a map without braces in a list has its key on the line of the colon
    if beginsMap && key.line < line then none
    else
      let l := if beginsMap then l.insert key.number .mapStart else l
      let l := (l.openBlock key.column key.number .blockMap).enterStep
      some (((l.setKey none).allowKey false).push .value)
  | _ =>
    let l := if beginsMap then l.push .mapStart else l
    if !l.inFlow && !l.keyAllowed then none
    else
      let l := (l.openBlock column l.tokens.length .blockMap).enterStep
      some ((l.allowKey !l.inFlow).push .value)

/-! Nodes. -/

def takeName (l : Lexer) (node : String → Token) : Option Lexer :=
  let isPart (c : Char) : Bool := !isBlank c && !isBreak c && !isFlow c && c ≠ '\uFEFF'
  let l := (l.markKey.allowKey false).advance 1
  let name := l.cursor.rest.takeWhile isPart
  if name.isEmpty then none else some ((l.advance name.length).push (node (String.ofList name)))

def takeTag (l : Lexer) : Option Lexer := do
  let l := l.markKey.allowKey false
  let (tag, rest) ← Tag.take l.cursor.rest
  let isEnd := atGap rest || (l.inFlow && rest.head?.any isFlow)
  if isEnd then some ((l.advanceTo rest).push (.tag tag)) else none

def takeBlockScalar (l : Lexer) (literal : Bool) : Option Lexer := do
  let l := ((l.markKey.allowKey true).advance 1).leaveStep
  let (text, cursor) ← takeBlock literal l.indent l.cursor
  some ({ l with cursor }.push (.scalar false (String.ofList text)))

/-- Whether a text may follow a quoted scalar. Without brackets one that is a key is on one line. -/
def mayFollowQuoted (inFlow isOneLine : Bool) (cs : List Char) : Bool :=
  match cs with
  | ':' :: _ => inFlow || isOneLine
  | c :: _ => isBreak c || (inFlow && (c = ',' || c = ']' || c = '}'))
  | [] => true

def takeQuotedScalar (l : Lexer) (quote : Char) : Option Lexer := do
  let l := l.markKey.allowKey false
  let line := l.cursor.line
  let start := l.cursor.advance 1
  let (text, cursor) ← takeQuoted quote l.indent (start.rest.length + 1) start
  let (_, l) ← { l with cursor }.skipBlanks
  if mayFollowQuoted l.inFlow (l.cursor.line = line) l.cursor.rest then
    let l ← skipToToken (l.cursor.rest.length + 1) l
    some ({ l with adjacentAt := l.cursor.index }.push (.scalar false (String.ofList text)))
  else none

def takePlainScalar (l : Lexer) : Option Lexer := do
  let l := (l.markKey.allowKey false).leaveStep
  let c := l.cursor
  if l.inFlow && c.column < l.indent + 1 then none
  else
    let (text, cursor) ← takePlain l.inFlow (l.indent + 1) (c.rest.length + 1) c {} []
    if text.isEmpty then none
    else
      let l := { l with cursor, keyAllowed := cursor.leading }
      some (l.push (.scalar true (String.ofList text)))

/-! Documents. -/

def takeDocumentMark (l : Lexer) (t : Token) : Option Lexer := do
  let l ← (l.closeBlocks (-1)).dropKey
  some (((l.allowKey false).advance 3).push t)

def takeDocumentEnd (l : Lexer) : Option Lexer := do
  let (_, l) ← (← l.takeDocumentMark .documentEnd).skipBlanks
  if atLineEnd l.cursor.rest then some l else none

def takeDirective (l : Lexer) : Option Lexer := do
  let l := ((← (l.closeBlocks (-1)).dropKey).allowKey false).advance 1
  let (d, rest) ← Directive.take l.cursor.rest
  let (_, l) ← (l.advanceTo rest).skipBlanks
  if atLineEnd l.cursor.rest then some ({ l with cursor := l.cursor.passBreak }.push (.directive d))
  else none

/-! All together. -/

/-- Whether a colon stands before a value. Between brackets the gap after it may be missing, though
not before another bracket unless the key before the colon ends with one or with a quote. -/
def isColon (l : Lexer) (rest : List Char) : Bool :=
  atGap rest || (l.inFlow && (rest.head?.any isFlow || l.cursor.index = l.adjacentAt))

def isLooseColon (l : Lexer) (rest : List Char) : Bool :=
  !atGap rest && l.cursor.index ≠ l.adjacentAt && (rest.head? = some '[' || rest.head? = some '{')

def takeSign (l : Lexer) (c : Char) (rest : List Char) : Option Lexer :=
  if c = '[' then l.takeOpening .listStart
  else if c = '{' then l.takeOpening .mapStart
  else if c = ']' then l.takeClosing .listEnd
  else if c = '}' then l.takeClosing .mapEnd
  else if c = ',' then l.takeComma
  else if c = '-' ∧ atGap rest then l.takeDash
  else if c = '?' ∧ atGap rest then l.takeKey
  else if c = ':' ∧ l.isColon rest then if l.isLooseColon rest then none else l.takeColon
  else if c = '*' then l.takeName .repeated
  else if c = '&' then l.takeName .anchor
  else if c = '!' then l.takeTag
  else if c = '|' ∧ !l.inFlow then l.takeBlockScalar true
  else if c = '>' ∧ !l.inFlow then l.takeBlockScalar false
  else if c = '\'' ∨ c = '"' then l.takeQuotedScalar c
  else if c = '%' ∨ c = '@' ∨ c = '`' then none
  else l.takePlainScalar

def closesFlow (c : Char) : Bool := c = ',' || c = ']' || c = '}'

def takeToken (l : Lexer) (c : Char) (rest : List Char) : Option Lexer :=
  if l.cursor.column = 0 ∧ c = '%' then l.takeDirective
  else if l.cursor.column = 0 ∧ isMark '-' (c :: rest) then l.takeDocumentMark .documentStart
  else if l.cursor.column = 0 ∧ isMark '.' (c :: rest) then l.takeDocumentEnd
  else if l.cursor.column < l.indent && !(l.inFlow && closesFlow c) then none
  else l.takeSign c rest

/-- Takes at most `most` more tokens, up to the end of the text. -/
def takeAll : Nat → Lexer → Option (List Token)
  | 0, _ => none
  | most + 1, l => do
    let l ← (← skipToToken (l.cursor.rest.length + 1) l).dropFarKey
    let l := l.closeBlocks l.cursor.column
    match l.cursor.rest with
    | [] =>
      if l.keys.any fun key => key.any KeyPlace.required then none
      else some (l.closeBlocks (-1)).tokens.reverse
    | c :: rest => takeAll most (← l.takeToken c rest)

end Lexer

def Token.ofChars (cs : List Char) : Option (List Token) :=
  Lexer.takeAll (cs.length + 1) { cursor := { rest := cs } }

end Colloquy.Yaml
