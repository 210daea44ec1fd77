import Colloquy.Text.Hexadecimal

/-!
The words of TOML. Strings come in four kinds, of which those between double quotes have escapes.
-/

namespace Colloquy.Toml

def isSpace (c : Char) : Bool := c = ' ' || c = '\t'

/-- The characters that stand for themselves: all but control characters, with the tab. -/
def isPlain (c : Char) : Bool := c = '\t' || (' ' ≤ c && c ≠ '\x7f')

def skipSpaces (cs : List Char) : List Char := cs.dropWhile isSpace

def afterLineEnd? : List Char → Option (List Char)
  | '\n' :: rest => some rest
  | '\r' :: '\n' :: rest => some rest
  | _ => none

def skipComment : List Char → List Char
  | '#' :: rest => rest.dropWhile isPlain
  | cs => cs

def skipFill (inComment : Bool) : List Char → List Char
  | [] => []
  | '\n' :: rest => skipFill false rest
  | '\r' :: '\n' :: rest => skipFill false rest
  | c :: rest =>
    if inComment then if isPlain c then skipFill true rest else c :: rest
    else if isSpace c then skipFill false rest
    else if c = '#' then skipFill true rest
    else c :: rest

def skipBlanks : List Char → List Char
  | [] => []
  | '\n' :: rest => skipBlanks rest
  | '\r' :: '\n' :: rest => skipBlanks rest
  | c :: rest => if isSpace c then skipBlanks rest else c :: rest

theorem skipBlanks_length (cs : List Char) : (skipBlanks cs).length ≤ cs.length := by
  fun_induction skipBlanks cs
  all_goals simp_all
  all_goals omega

/-- The written part of a string on one line, up to the quote that closes it. -/
def takeLine (quote : Char) (escapes : Bool) : List Char → Option (List Char × List Char)
  | [] => none
  | '\\' :: c :: rest =>
    if escapes then
      if isPlain c then (takeLine quote escapes rest).map fun t => ('\\' :: c :: t.1, t.2) else none
    else (takeLine quote escapes (c :: rest)).map fun t => ('\\' :: t.1, t.2)
  | c :: rest =>
    if c = quote then some ([], rest)
    else if isPlain c then (takeLine quote escapes rest).map fun t => (c :: t.1, t.2)
    else none

/-- The written part of a string on several lines, up to the three quotes that close it. One or two
quotes before those belong to the string. -/
def takeLines (quote : Char) (escapes : Bool) : List Char → Option (List Char × List Char)
  | [] => none
  | '\n' :: rest => (takeLines quote escapes rest).map fun t => ('\n' :: t.1, t.2)
  | '\r' :: '\n' :: rest => (takeLines quote escapes rest).map fun t => ('\r' :: '\n' :: t.1, t.2)
  | '\\' :: '\\' :: rest =>
    (takeLines quote escapes rest).map fun t => ('\\' :: '\\' :: t.1, t.2)
  | '\\' :: '"' :: rest =>
    if escapes then (takeLines quote escapes rest).map fun t => ('\\' :: '"' :: t.1, t.2)
    else (takeLines quote escapes ('"' :: rest)).map fun t => ('\\' :: t.1, t.2)
  | c :: rest =>
    let quotes := ((c :: rest).take 5).takeWhile (· = quote)
    if 3 ≤ quotes.length then some (quotes.drop 3, (c :: rest).drop quotes.length)
    else if isPlain c then (takeLines quote escapes rest).map fun t => (c :: t.1, t.2)
    else none

def shortEscape? (c : Char) : Option Char :=
  if c = 'b' then some '\x08'
  else if c = 't' then some '\t'
  else if c = 'n' then some '\n'
  else if c = 'f' then some '\x0c'
  else if c = 'r' then some '\r'
  else if c = 'e' then some '\x1b'
  else if c = '"' ∨ c = '\\' then some c
  else none

/-- The text that a written string with escapes stands for. A backslash at the end of a line stands
for nothing, and so do the blanks after it. -/
def resolveEscapes : List Char → Option (List Char)
  | [] => some []
  | '\\' :: e :: rest =>
    if e = 'x' then do
      let c ← Text.codeChar? 2 rest
      let t ← resolveEscapes (rest.drop 2)
      some (c :: t)
    else if e = 'u' then do
      let c ← Text.codeChar? 4 rest
      let t ← resolveEscapes (rest.drop 4)
      some (c :: t)
    else if e = 'U' then do
      let c ← Text.codeChar? 8 rest
      let t ← resolveEscapes (rest.drop 8)
      some (c :: t)
    else if (afterLineEnd? (skipSpaces (e :: rest))).isSome then resolveEscapes (skipBlanks rest)
    else do
      let c ← shortEscape? e
      let t ← resolveEscapes rest
      some (c :: t)
  | c :: rest => (resolveEscapes rest).map (c :: ·)
termination_by cs => cs.length
decreasing_by
  all_goals simp only [List.length_cons, List.length_drop]
  all_goals first
    | omega
    | exact Nat.lt_succ_of_le (Nat.le_succ_of_le (skipBlanks_length _))

def readWritten (escapes : Bool) (t : List Char × List Char) : Option (String × List Char) :=
  if escapes then (resolveEscapes t.1).map fun s => (String.ofList s, t.2)
  else some (String.ofList t.1, t.2)

def hasEscapes (quote : Char) : Bool := quote = '"'

def takeShort (quote : Char) (cs : List Char) : Option (String × List Char) :=
  (takeLine quote (hasEscapes quote) cs).bind (readWritten (hasEscapes quote))

/-- A string on several lines whose first quotes have been taken. A line end right after those is
not part of it. -/
def takeLong (quote : Char) (cs : List Char) : Option (String × List Char) :=
  (takeLines quote (hasEscapes quote) ((afterLineEnd? cs).getD cs)).bind
    (readWritten (hasEscapes quote))

def takeString (quote : Char) (cs : List Char) : Option (String × List Char) :=
  match cs with
  | a :: b :: rest => if a = quote ∧ b = quote then takeLong quote rest else takeShort quote cs
  | _ => takeShort quote cs

def isBare (c : Char) : Bool := c.isAlphanum || c = '_' || c = '-'

def takeStep : List Char → Option (String × List Char)
  | '"' :: rest => takeShort '"' rest
  | '\'' :: rest => takeShort '\'' rest
  | cs =>
    let word := cs.takeWhile isBare
    if word.isEmpty then none else some (String.ofList word, cs.dropWhile isBare)

/-- The steps of a key, of which there are `most` at most, with dots between them. -/
def takeSteps : Nat → List Char → Option (List String × List Char)
  | 0, _ => none
  | most + 1, cs => do
    let (step, rest) ← takeStep (skipSpaces cs)
    match skipSpaces rest with
    | '.' :: rest =>
      let (steps, rest) ← takeSteps most rest
      some (step :: steps, rest)
    | rest => some ([step], rest)

def depthLimit : Nat := 80

def takeKey (cs : List Char) : Option (List String × List Char) := takeSteps depthLimit cs

end Colloquy.Toml
