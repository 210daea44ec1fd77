import Colloquy.Proofs.Value.Comparison
import Colloquy.Proofs.Value.Written

/-!
What is displayed of a boolean, a number or a time neither begins nor ends with a blank, so it is
found whole between any blanks.
-/

namespace Colloquy
open Std

/-! ## Blanks around a text -/

namespace Text

end Text

namespace Decimal

end Decimal

namespace Timestamp
open Decimal Text

end Timestamp

namespace Value

/-! ## Values against their texts -/

-- with a sign and five digits the year is not of the form that is read
example :
    let far : Instant := ⟨⟨10000, 1, 1, by decide⟩, 0, 0, by decide, by decide⟩
    (time far).display = "+10000-01-01T00:00:00+00:00".toList ∧
      looseEq (time far) (text "+10000-01-01T00:00:00+00:00") = .ok false :=
  ⟨by decide, rfl⟩

end Value

end Colloquy
