/-!
Between quotes, a backslash stands before each quote and each backslash of a text.
-/

namespace Colloquy.Text

def escape : List Char → List Char
  | [] => []
  | c :: rest => if c = '"' ∨ c = '\\' then '\\' :: c :: escape rest else c :: escape rest

def quote (cs : List Char) : List Char := '"' :: escape cs ++ ['"']

end Colloquy.Text
