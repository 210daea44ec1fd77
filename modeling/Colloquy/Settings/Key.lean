/-!
The name of a setting may be followed by steps that lead into a table or a list: a dot and a name,
or an index between brackets.
-/

namespace Colloquy.Settings

def isKeyChar (c : Char) : Bool := c.isAlphanum || c = '_' || c = '-'

def skipBlanks (cs : List Char) : List Char := cs.dropWhile fun c => c = ' ' || c = '\t'

/-- What follows an index and its closing bracket. An index fits in 64 bits and may be negative. -/
def afterIndex? (cs : List Char) : Option (List Char) :=
  let (sign, rest) : Int × List Char := match skipBlanks cs with
    | '-' :: rest => (-1, rest)
    | rest => (1, rest)
  let digits := rest.takeWhile Char.isDigit
  let index : Int := sign * digits.foldl (fun n c => 10 * n + (c.toNat - '0'.toNat)) 0
  if digits.isEmpty || index < -9223372036854775808 || 9223372036854775807 < index then none
  else
    match skipBlanks (rest.dropWhile Char.isDigit) with
    | ']' :: rest => some rest
    | _ => none

def afterStep? : List Char → Option (List Char)
  | '.' :: rest =>
    if (rest.takeWhile isKeyChar).isEmpty then none else some (rest.dropWhile isKeyChar)
  | '[' :: rest => afterIndex? rest
  | _ => none

/-- Whether a text is made up of at most `most` steps that lead on. -/
def isSteps : Nat → List Char → Bool
  | _, [] => true
  | 0, _ => false
  | most + 1, cs => (afterStep? cs).any (isSteps most)

/-- The name of the setting that a name leads into by further steps. A name that cannot be read in
that way leads nowhere. -/
def rootOf? (name : String) : Option String :=
  let root := name.toList.takeWhile isKeyChar
  let rest := name.toList.dropWhile isKeyChar
  if !root.isEmpty && !rest.isEmpty && isSteps rest.length rest then some (String.ofList root)
  else none

end Colloquy.Settings
