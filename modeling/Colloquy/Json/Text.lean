import Colloquy.Json.Token
import Colloquy.Utf8

/-!
Strings of JSON. Only quotes, backslashes and control characters are escaped in writing; in reading
every escape is taken.
-/

namespace Colloquy.Json

def escapeControl (c : Char) : List Char :=
  ['\\', 'u', '0', '0', Nat.digitChar (c.toNat / 16), Nat.digitChar (c.toNat % 16)]

def escapeChar (c : Char) : List Char :=
  if c = '"' then ['\\', '"']
  else if c = '\\' then ['\\', '\\']
  else if c = '\x08' then ['\\', 'b']
  else if c = '\x0c' then ['\\', 'f']
  else if c = '\n' then ['\\', 'n']
  else if c = '\r' then ['\\', 'r']
  else if c = '\t' then ['\\', 't']
  else if c.toNat < 0x20 then escapeControl c
  else [c]

def quote (cs : List Char) : List Char := '"' :: cs.flatMap escapeChar ++ ['"']

def brackets (opening closing : Char) (items : List (List Char)) : List Char :=
  opening :: List.intercalate [','] items ++ [closing]

def hexValue (b : UInt8) : Nat :=
  if isDigit b then b.toNat - '0'.toNat
  else if byte 'a' ≤ b then b.toNat - 'a'.toNat + 10
  else b.toNat - 'A'.toNat + 10

def hexUnit (h1 h2 h3 h4 : UInt8) : Nat :=
  ((hexValue h1 * 16 + hexValue h2) * 16 + hexValue h3) * 16 + hexValue h4

def shortEscape (e : UInt8) : UInt8 :=
  if e = byte 'b' then 0x08
  else if e = byte 'f' then 0x0C
  else if e = byte 'n' then byte '\n'
  else if e = byte 'r' then byte '\r'
  else if e = byte 't' then byte '\t'
  else e

def isLeading (unit : Nat) : Bool := 0xD800 ≤ unit && unit < 0xDC00

def isTrailing (unit : Nat) : Bool := 0xDC00 ≤ unit && unit < 0xE000

def pairedChar (leading trailing : Nat) : Char :=
  Char.ofNat (0x10000 + (leading - 0xD800) * 1024 + (trailing - 0xDC00))

/-- The bytes that a written string stands for. A leading unit that no trailing one follows, and a
trailing one by itself, stand for nothing. -/
def resolveEscapes : List UInt8 → Option (List UInt8)
  | [] => some []
  | b :: rest =>
    if b = byte '\\' then
      match rest with
      | [] => none
      | e :: rest =>
        if e = byte 'u' then
          match rest with
          | h1 :: h2 :: h3 :: h4 :: rest =>
            let unit := hexUnit h1 h2 h3 h4
            if isTrailing unit then none
            else if isLeading unit then
              match rest with
              | s :: u :: g1 :: g2 :: g3 :: g4 :: rest =>
                let next := hexUnit g1 g2 g3 g4
                if s = byte '\\' ∧ u = byte 'u' ∧ isTrailing next then
                  (resolveEscapes rest).map (String.utf8EncodeChar (pairedChar unit next) ++ ·)
                else none
              | _ => none
            else (resolveEscapes rest).map (String.utf8EncodeChar (Char.ofNat unit) ++ ·)
          | _ => none
        else (resolveEscapes rest).map (shortEscape e :: ·)
    else (resolveEscapes rest).map (b :: ·)

/-- The text that a written string stands for, if it holds whole characters. -/
def unquote (written : List UInt8) : Option (List Char) :=
  (resolveEscapes written).bind Utf8.decode

end Colloquy.Json
