import Colloquy.Ron.Number

/-!
RON texts as trees. Structures may carry names, of which nothing is kept; a name by itself stands
for nothing.
-/

namespace Colloquy

inductive Ron where
  | unit
  | present (value : Ron)
  | boolean (b : Bool)
  | number (n : Decimal.Number)
  | text (s : String)
  | list (items : List Ron)
  /-- All entries in order, repeated ones included. -/
  | map (entries : List (String × Ron))

namespace Ron

/-- What is present of an optional value; any other value is itself. -/
def content : Ron → Ron
  | present value => value.content
  | value => value

/-- A comma, or else the end of a list, which a closing character tells: what follows it, and
whether the list goes on. -/
def takeComma (close : Char) (cs : List Char) : Option (Bool × List Char) := do
  match ← skipFill .blanks cs with
  | ',' :: rest => some (true, rest)
  | c :: rest => if c = close then some (false, rest) else none
  | [] => none

/-- The parts of a list after its opening character, of which there are `most` at most, and what
follows the closing one. A comma may stand after the last part. -/
def takeList {α : Type} (close : Char) (take : List Char → Option (α × List Char)) :
    Nat → List Char → Option (List α × List Char)
  | 0, _ => none
  | most + 1, cs => do
    let cs ← skipFill .blanks cs
    if cs.head? = some close then some ([], cs.drop 1)
    else
      let (part, rest) ← take cs
      let (goesOn, rest) ← takeComma close rest
      if goesOn then
        let (parts, rest) ← takeList close take most rest
        some (part :: parts, rest)
      else some ([part], rest)

def takeAfterColon (take : List Char → Option (Ron × List Char)) (cs : List Char) :
    Option (Ron × List Char) := do
  match ← skipFill .blanks cs with
  | ':' :: rest => take (← skipFill .blanks rest)
  | _ => none

def takeField (take : List Char → Option (Ron × List Char)) (cs : List Char) :
    Option ((String × Ron) × List Char) := do
  let (name, rest) ← takeFieldName cs
  let (value, rest) ← takeAfterColon take rest
  some ((String.ofList name, value), rest)

def takeEntry (take : List Char → Option (Ron × List Char)) (cs : List Char) :
    Option ((String × Ron) × List Char) := do
  let (key, rest) ← take cs
  match key with
  | text key =>
    let (value, rest) ← takeAfterColon take rest
    some ((key, value), rest)
  | _ => none

def namesFields (cs : List Char) : Bool :=
  let after := do
    let (_, rest) ← takeName (← skipFill .blanks cs)
    skipFill .blanks rest
  after.any fun rest => rest.head? = some ':'

def takeStructure (take : List Char → Option (Ron × List Char)) (cs : List Char) :
    Option (Ron × List Char) :=
  if namesFields cs then
    (takeList ')' (takeField take) cs.length cs).map fun t => (map t.1, t.2)
  else (takeList ')' take cs.length cs).map fun t => (list t.1, t.2)

def takePresent (take : List Char → Option (Ron × List Char)) (cs : List Char) :
    Option (Ron × List Char) := do
  let (value, rest) ← take (← skipFill .blanks cs)
  match ← takeComma ')' rest with
  | (false, rest) => some (present value, rest)
  | (true, rest) =>
    match ← skipFill .blanks rest with
    | ')' :: rest => some (present value, rest)
    | _ => none

def afterParenthesis? : List Char → Option (List Char)
  | '(' :: rest => some rest
  | _ => none

def takeNamed (take : Option (List Char → Option (Ron × List Char))) (name rest : List Char) :
    Option (Ron × List Char) := do
  let word := String.ofList name
  if word = "true" then some (boolean true, rest)
  else if word = "false" then some (boolean false, rest)
  else if word = "None" then some (unit, rest)
  else
    match afterParenthesis? (← skipFill .blanks rest) with
    | none => if word = "Some" then none else some (unit, ← skipFill .blanks rest)
    | some inside =>
      if word = "Some" then takePresent (← take) inside else takeStructure (← take) inside

def takeScalar : List Char → Option (Ron × List Char)
  | '"' :: rest =>
    (takeString (rest.length + 1) rest).map fun t => (text (String.ofList t.1), t.2)
  | 'r' :: rest => (takeRawString rest).map fun t => (text (String.ofList t.1), t.2)
  | '\'' :: rest => (takeChar rest).map fun t => (text (String.ofList [t.1]), t.2)
  | 'b' :: '\'' :: rest =>
    (takeChar rest).map fun t => (number (.integer t.1.toNat), t.2)
  | 'b' :: '"' :: rest => (takeString (rest.length + 1) rest).map fun t => (list [], t.2)
  | 'b' :: 'r' :: rest => (takeRawString rest).map fun t => (list [], t.2)
  | c :: rest =>
    if c.isDigit || c = '+' || c = '-' || c = '.' then
      (takeNumber (c :: rest)).map fun t => (number t.1, t.2)
    else none
  | [] => none

def takeValue : Nat → List Char → Option (Ron × List Char)
  | _, '(' :: ')' :: rest => some (unit, rest)
  | 0, '(' :: _ | 0, '[' :: _ | 0, '{' :: _ => none
  | depth + 1, '(' :: rest => takeStructure (takeValue depth) rest
  | depth + 1, '[' :: rest =>
    (takeList ']' (takeValue depth) rest.length rest).map fun t => (list t.1, t.2)
  | depth + 1, '{' :: rest =>
    (takeList '}' (takeEntry (takeValue depth)) rest.length rest).map fun t => (map t.1, t.2)
  | depth, cs =>
    match takeFractionWord cs, takeName cs with
    | some (x, rest), _ => some (number (.fraction x), rest)
    | none, none => takeScalar cs
    | none, some (name, rest) =>
      match depth with
      | 0 => takeNamed none name rest
      | depth + 1 => takeNamed (some (takeValue depth)) name rest

def depthLimit : Nat := 128

def extensions : List String :=
  ["unwrap_newtypes", "implicit_some", "unwrap_variant_newtypes", "explicit_struct_names"]

def takeExtension (cs : List Char) : Option (Unit × List Char) := do
  let (name, rest) ← takeFieldName cs
  if String.ofList name ∈ extensions then some ((), rest) else none

def skipWords : List String → List Char → Option (List Char)
  | [], cs => some cs
  | word :: words, cs =>
    if word.toList.isPrefixOf cs then do skipWords words (← skipFill .blanks (cs.drop word.length))
    else none

/-- What follows the lists of extensions at the front of a text, of which there are `most` at
most. -/
def skipExtensions : Nat → List Char → Option (List Char)
  | 0, cs => some cs
  | most + 1, cs =>
    if cs.head? = some '#' then do
      let (names, rest) ← takeList ')' takeExtension cs.length
        (← skipWords ["#", "!", "[", "enable", "("] cs)
      if names.isEmpty then none
      else skipExtensions most (← skipWords ["]"] (← skipFill .blanks rest))
    else some cs

/-- The tree of a text that is one value, with blanks and comments around it. -/
def read (cs : List Char) : Option Ron := do
  let cs ← skipExtensions cs.length (← skipFill .blanks cs)
  let (value, rest) ← takeValue depthLimit cs
  if (← skipFill .blanks rest).isEmpty then some value else none

end Ron

end Colloquy
