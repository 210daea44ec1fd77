import Colloquy.Text.CaseTable

/-!
Letters are lowered one by one; only a capital sigma looks at its surroundings, for it has a form of
its own at the end of a word.
-/

namespace Colloquy.Text

/-- Whether the first character that is not passed over takes part in case distinctions. -/
def meetsCased (cs : List Char) : Bool :=
  match cs.dropWhile isCaseIgnorable with
  | [] => false
  | c :: _ => isCased c

/-- The lower case of a capital sigma, given what stands before it (nearest first) and after it. -/
def lowerSigma (before after : List Char) : Char :=
  if meetsCased before && !meetsCased after then 'ς' else 'σ'

/-- Lowers the characters of a word, given those before them, nearest first. -/
def lowerAfter (before : List Char) : List Char → List Char
  | [] => []
  | c :: rest =>
    (if c = 'Σ' then [lowerSigma before rest] else lowerChar c) ++ lowerAfter (c :: before) rest

def lower (word : List Char) : List Char := lowerAfter [] word

end Colloquy.Text
