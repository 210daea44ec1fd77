import Colloquy.Decimal
import Colloquy.Text.Hexadecimal
import Colloquy.Utf8

/-!
What a written path of a database asks for. One that begins like the URI of a file may go on with
options.
-/

namespace Colloquy.Database

inductive Access where
  /-- The file has to be there and is not written. -/
  | reading
  /-- The file has to be there. -/
  | writing
  | creating
  | memory
deriving DecidableEq

namespace Access

def ofName? (s : String) : Option Access :=
  if s = "ro" then some reading
  else if s = "rw" then some writing
  else if s = "rwc" then some creating
  else if s = "memory" then some memory
  else none

def rank : Access → Nat
  | memory => 0
  | reading => 1
  | writing => 2
  | creating => 3

/-- The access that an option leaves. None may be asked for that allows more than one before. -/
def refine? (access : Access) (option : String × String) : Option Access :=
  if option.1 = "mode" then
    (ofName? option.2).filter fun next => access = memory || next.rank ≤ access.rank
  else if option.1 = "cache" then
    if option.2 = "shared" ∨ option.2 = "private" then some access else none
  else some access

end Access

structure Location where
  /-- The path of the file; some names are those of no file. -/
  name : String
  access : Access := .creating
  options : List (String × String) := []

namespace Location

/-- The bytes of a part of a URI. One that is zero ends it. -/
def bytesOf : List Char → List UInt8
  | '%' :: high :: low :: cs =>
    if Text.isHexDigit high && Text.isHexDigit low then
      let byte := 16 * Text.hexValue high + Text.hexValue low
      if byte = 0 then [] else UInt8.ofNat byte :: bytesOf cs
    else '%'.toUInt8 :: bytesOf (high :: low :: cs)
  | c :: cs => Utf8.encode [c] ++ bytesOf cs
  | [] => []

def partOf (cs : List Char) : String := String.ofList (Utf8.decodeLossy (bytesOf cs))

/-- An option with its value, which may be missing. Without a name there is no option. -/
def optionOf? (cs : List Char) : Option (String × String) :=
  let name := partOf (cs.takeWhile (· ≠ '='))
  if name = "" then none else some (name, partOf ((cs.dropWhile (· ≠ '=')).drop 1))

/-- What follows the authority of a URI, which may only be the machine itself. -/
def afterAuthority? : List Char → Option (List Char)
  | '/' :: '/' :: cs =>
    let authority := String.ofList (cs.takeWhile (· ≠ '/'))
    if authority = "" ∨ authority = "localhost" then some (cs.dropWhile (· ≠ '/')) else none
  | cs => some cs

def value? (l : Location) (option : String) : Option String := l.options.lookup option

/-- The ways to reach a file that may be asked for. They differ in how a file is locked, but for one
that keeps it in memory. -/
def reaches : List String := ["unix", "unix-none", "unix-dotfile", "unix-excl", "memdb"]

def reach (l : Location) : String := (l.options.reverse.lookup "vfs").getD "unix"

def ofUri? (cs : List Char) : Option Location := do
  let cs := (← afterAuthority? cs).takeWhile (· ≠ '#')
  let query := (cs.dropWhile (· ≠ '?')).drop 1
  let options := (query.splitOn '&').filterMap optionOf?
  let access ← options.foldlM Access.refine? .creating
  let l : Location := ⟨partOf (cs.takeWhile (· ≠ '?')), access, options⟩
  if l.reach ∈ reaches then some l else none

/-- The location that a written path tells. No path holds a zero character. -/
def ofString? (s : String) : Option Location :=
  let cs := s.toList
  let scheme := "file:".toList
  if '\x00' ∈ cs then none
  else if scheme.isPrefixOf cs then ofUri? (cs.drop scheme.length)
  else some { name := s }

/-- Whether a value switches an option on: a word, or a number of which the lowest byte is not
zero. -/
def isOn (value : String) : Bool :=
  let cs := value.toList
  let number := match cs with
    | '0' :: 'x' :: digits | '0' :: 'X' :: digits =>
      Text.hexNumber (digits.takeWhile Text.isHexDigit)
    | _ => Decimal.value (cs.takeWhile Decimal.isDigit)
  if cs.head?.any Decimal.isDigit then number ≤ 2147483647 && number % 256 ≠ 0
  else
    let word := String.ofList (cs.map Char.toLower)
    word = "on" || word = "yes" || word = "true"

/-- Whether the database lasts for one run: it has no name, or is kept in memory. -/
def isTransient (l : Location) : Bool :=
  l.name = "" || l.name = ":memory:" || l.access = .memory || l.reach = "memdb"

def isImmutable (l : Location) : Bool :=
  l.name ≠ "" && l.name ≠ ":memory:" && l.access ≠ .memory && (l.value? "immutable").any isOn

def isReadOnly (l : Location) : Bool := l.access = .reading || l.isImmutable

end Location

end Colloquy.Database
