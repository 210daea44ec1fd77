/-!
Where bytes are not those of a character, the longest part that could have begun one is passed over.
-/

namespace Colloquy.Utf8

def encode (cs : List Char) : List UInt8 := cs.flatMap String.utf8EncodeChar

def isContinuation (b : UInt8) : Bool := 0x80 ≤ b && b < 0xC0

/-- Whether a byte can be the second of a character whose first byte announces three or four. -/
def canFollow (a b : UInt8) : Bool :=
  if a = 0xE0 then 0xA0 ≤ b && b < 0xC0
  else if a = 0xED then 0x80 ≤ b && b < 0xA0
  else if a = 0xF0 then 0x90 ≤ b && b < 0xC0
  else if a = 0xF4 then 0x80 ≤ b && b < 0x90
  else isContinuation b

def low (b : UInt8) : Nat := b.toNat - 0x80

def second (a : UInt8) : List UInt8 → Option Char × List UInt8
  | [] => (none, [])
  | b :: rest =>
    if isContinuation b then (some (Char.ofNat ((a.toNat - 0xC0) * 64 + low b)), rest)
    else (none, b :: rest)

def thirdOf (a : UInt8) : List UInt8 → Option Char × List UInt8
  | [] => (none, [])
  | b :: rest =>
    if canFollow a b then
      match rest with
      | [] => (none, [])
      | c :: after =>
        if isContinuation c then
          (some (Char.ofNat (((a.toNat - 0xE0) * 64 + low b) * 64 + low c)), after)
        else (none, c :: after)
    else (none, b :: rest)

def fourthOf (a : UInt8) : List UInt8 → Option Char × List UInt8
  | [] => (none, [])
  | b :: rest =>
    if canFollow a b then
      match rest with
      | [] => (none, [])
      | c :: rest =>
        if isContinuation c then
          match rest with
          | [] => (none, [])
          | d :: after =>
            if isContinuation d then
              (some (Char.ofNat ((((a.toNat - 0xF0) * 64 + low b) * 64 + low c) * 64 + low d)),
                after)
            else (none, d :: after)
        else (none, c :: rest)
    else (none, b :: rest)

def first (a : UInt8) (rest : List UInt8) : Option Char × List UInt8 :=
  if a < 0x80 then (some (Char.ofNat a.toNat), rest)
  else if a < 0xC2 then (none, rest)
  else if a < 0xE0 then second a rest
  else if a < 0xF0 then thirdOf a rest
  else if a < 0xF5 then fourthOf a rest
  else (none, rest)

theorem first_length (a : UInt8) (rest : List UInt8) : (first a rest).2.length ≤ rest.length := by
  unfold first second thirdOf fourthOf
  repeat' split
  all_goals simp
  all_goals omega

/-- The characters that bytes encode, `none` where a character is broken. -/
def decodeEach : List UInt8 → List (Option Char)
  | [] => []
  | a :: rest => (first a rest).1 :: decodeEach (first a rest).2
termination_by bytes => bytes.length
decreasing_by exact Nat.lt_succ_of_le (first_length a rest)

/-- The characters that bytes encode, if they encode characters throughout. -/
def decode (bytes : List UInt8) : Option (List Char) := (decodeEach bytes).mapM id

/-- The characters that bytes encode, with a replacement for each broken one. -/
def decodeLossy (bytes : List UInt8) : List Char :=
  (decodeEach bytes).map fun c => c.getD (Char.ofNat 0xFFFD)

end Colloquy.Utf8
