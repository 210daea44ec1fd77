namespace Colloquy.Text

/-- A line and a column, both counted from one. -/
structure Location where
  line : Nat
  column : Nat
deriving DecidableEq, Repr

/-- The location reached by passing over a character. Only a line feed ends a line. -/
def Location.advance (l : Location) (c : Char) : Location :=
  if c = '\n' then ⟨l.line + 1, 1⟩ else ⟨l.line, l.column + 1⟩

def Location.ofOffset (cs : List Char) (offset : Nat) : Location :=
  (cs.take offset).foldl Location.advance ⟨1, 1⟩

end Colloquy.Text
