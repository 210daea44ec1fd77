/-!
The tokens of a query. A name can only follow an opening parenthesis; everywhere else a run of plain
characters is a number or a word.
-/

namespace Colloquy.Query

inductive Token where
  | opening
  | closing
  | comma
  | name (text : List Char)
  /-- A variable, without its dollar sign. -/
  | reference (name : List Char)
  | number (text : List Char)
  | quoted (text : List Char)
  | word (text : List Char)
  /-- What no token begins with: a dollar sign without a name or a quote that is never closed. -/
  | stray
deriving DecidableEq

def isSpace (c : Char) : Bool := c = ' ' || c = '\t' || c = '\r' || c = '\n'

def isLetter (c : Char) : Bool := ('a' ≤ c && c ≤ 'z') || ('A' ≤ c && c ≤ 'Z')

def isDigit (c : Char) : Bool := '0' ≤ c && c ≤ '9'

def isNameChar (c : Char) : Bool := isLetter c || isDigit c || c = '-' || c = '_'

def isVariableChar (c : Char) : Bool := isNameChar c || c = '.'

def isWordChar (c : Char) : Bool :=
  !(isSpace c || c = '(' || c = ')' || c = ',' || c = '"' || c = '$')

def isNumber : List Char → Bool
  | '-' :: digits => !digits.isEmpty && digits.all isDigit
  | digits => !digits.isEmpty && digits.all isDigit

/-- The text up to the closing quote, escapes resolved, and what follows the quote. -/
def takeQuoted : List Char → Option (List Char × List Char)
  | [] => none
  -- a backslash has to escape something
  | ['\\'] => none
  | '\\' :: c :: rest => (takeQuoted rest).map fun (text, after) => (c :: text, after)
  | c :: rest =>
    if c = '"' then some ([], rest)
    else (takeQuoted rest).map fun (text, after) => (c :: text, after)

def Token.first (afterOpening : Bool) (c : Char) (rest : List Char) : Token × List Char :=
  if c = '(' then (opening, rest)
  else if c = ')' then (closing, rest)
  else if c = ',' then (comma, rest)
  else if c = '$' then
    match rest with
    | d :: after =>
      if isNameChar d then
        (reference (d :: after.takeWhile isVariableChar), after.dropWhile isVariableChar)
      else (stray, rest)
    | [] => (stray, rest)
  else if c = '"' then
    match takeQuoted rest with
    | some (text, after) => (quoted text, after)
    | none => (stray, rest)
  else if afterOpening && isLetter c then
    (name (c :: rest.takeWhile isNameChar), rest.dropWhile isNameChar)
  else
    -- a run is taken whole before it is looked at: one that only begins with digits is a word
    let run := c :: rest.takeWhile isWordChar
    (if isNumber run then number run else word run, rest.dropWhile isWordChar)

theorem takeQuoted_length {cs text after : List Char} (h : takeQuoted cs = some (text, after)) :
    after.length < cs.length := by
  fun_induction takeQuoted cs generalizing text after with
  | case1 => simp at h
  | case2 => simp at h
  | case3 c rest ih =>
    obtain ⟨⟨t, a⟩, ha, he⟩ := Option.map_eq_some_iff.1 h
    have shorter := ih ha
    simp only [Prod.mk.injEq] at he
    simp only [List.length_cons, ← he.2]
    omega
  | case4 rest => simp_all
  | case5 c rest _ _ _ ih =>
    obtain ⟨⟨t, a⟩, ha, he⟩ := Option.map_eq_some_iff.1 h
    have shorter := ih ha
    simp only [Prod.mk.injEq] at he
    simp only [List.length_cons, ← he.2]
    omega

theorem length_dropWhile_le (p : Char → Bool) (cs : List Char) :
    (cs.dropWhile p).length ≤ cs.length :=
  (List.dropWhile_sublist p).length_le

/-- What follows a token is never longer than what followed its first character. -/
theorem Token.first_length (afterOpening : Bool) (c : Char) (rest : List Char) :
    (first afterOpening c rest).2.length ≤ rest.length := by
  unfold first
  repeat' split
  all_goals first
    | exact Nat.le_refl _
    | exact length_dropWhile_le _ _
    | exact Nat.le_of_lt (takeQuoted_length (by assumption))
    | exact Nat.le_succ_of_le (length_dropWhile_le _ _)

/-- The tokens of a text that begins at an offset, each with the offset of its first character. -/
def tokensFrom (afterOpening : Bool) (offset : Nat) : List Char → List (Nat × Token)
  | [] => []
  | c :: rest =>
    if isSpace c then tokensFrom afterOpening (offset + 1) rest
    else
      let step := Token.first afterOpening c rest
      (offset, step.1) ::
        tokensFrom (step.1 = .opening) (offset + 1 + (rest.length - step.2.length)) step.2
termination_by cs => cs.length
decreasing_by
  · simp
  · exact Nat.lt_succ_of_le (Token.first_length afterOpening c rest)

def tokens (cs : List Char) : List (Nat × Token) := tokensFrom false 0 cs

end Colloquy.Query
