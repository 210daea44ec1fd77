import Colloquy.Decimal.Binary

/-!
Numbers as texts give them: whole ones, for which there may be any amount of room, and fractions.
-/

namespace Colloquy.Decimal

inductive Number where
  | integer (n : Int)
  | fraction (x : Binary)
deriving DecidableEq

end Colloquy.Decimal
