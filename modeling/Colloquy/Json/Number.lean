import Colloquy.Decimal.Number
import Colloquy.Decimal.Stepwise
import Colloquy.Json

namespace Colloquy.Json
open Colloquy.Decimal

/-- The number that is written. Whole numbers that fit in 64 bits, with a sign or without, are
integers; all else is a fraction, which has to be finite. -/
def number? (written : List UInt8) : Option Number :=
  match (number written).integer? with
  | some n =>
    if minInt64 ≤ n ∧ n ≤ Scaled.greatest then some (.integer n)
    else (readStepwise (ascii written)).map .fraction
  | none => (readStepwise (ascii written)).map .fraction

end Colloquy.Json
