namespace Colloquy.Text

/-- Whether a code point lies in one of the ranges. The ranges ascend, so the search stops at the
first one that begins past it. -/
def inRanges : List (Nat × Nat) → Nat → Bool
  | [], _ => false
  | (first, last) :: rest, code =>
    if code < first then false else if code ≤ last then true else inRanges rest code

end Colloquy.Text
