/-!
The tokens of a JSON text. Only the form of strings is checked here, not that they hold whole
characters.
-/

namespace Colloquy.Json

inductive Token where
  | beginArray
  | endArray
  | beginObject
  | endObject
  | colon
  | comma
  | null
  | boolean (b : Bool)
  | number (written : List UInt8)
  /-- The bytes between the quotes. -/
  | string (written : List UInt8)
deriving DecidableEq

def byte (c : Char) : UInt8 := c.toUInt8

def bytes (s : String) : List UInt8 := s.toList.map byte

def isSpace (b : UInt8) : Bool :=
  b = byte ' ' || b = byte '\t' || b = byte '\n' || b = byte '\r'

def isDigit (b : UInt8) : Bool := byte '0' ≤ b && b ≤ byte '9'

def isHexDigit (b : UInt8) : Bool :=
  isDigit b || (byte 'a' ≤ b && b ≤ byte 'f') || (byte 'A' ≤ b && b ≤ byte 'F')

def isShortEscape (b : UInt8) : Bool := b ∈ bytes "\"\\/bfnrt"

def mapTaken {α β : Type} (f : α → β) (o : Option (α × List UInt8)) : Option (β × List UInt8) :=
  o.map fun x => (f x.1, x.2)

/-- The bytes of a string up to its closing quote, and what follows the quote. -/
def takeString : List UInt8 → Option (List UInt8 × List UInt8)
  | [] => none
  | b :: rest =>
    if b = byte '"' then some ([], rest)
    else if b < 0x20 then none
    else if b = byte '\\' then
      match rest with
      | [] => none
      | e :: rest =>
        if isShortEscape e then mapTaken (fun s => b :: e :: s) (takeString rest)
        else if e = byte 'u' then
          match rest with
          | h1 :: h2 :: h3 :: h4 :: rest =>
            if isHexDigit h1 && isHexDigit h2 && isHexDigit h3 && isHexDigit h4 then
              mapTaken (fun s => b :: e :: h1 :: h2 :: h3 :: h4 :: s) (takeString rest)
            else none
          | _ => none
        else none
    else mapTaken (fun s => b :: s) (takeString rest)

def takeDigits (bs : List UInt8) : Option (List UInt8 × List UInt8) :=
  let digits := bs.takeWhile isDigit
  if digits.isEmpty then none else some (digits, bs.dropWhile isDigit)

def takeWhole (bs : List UInt8) : Option (List UInt8 × List UInt8) :=
  match takeDigits bs with
  | none => none
  | some (digits, rest) =>
    -- no zero in front of other digits
    if digits.head? = some (byte '0') && digits.length ≠ 1 then none else some (digits, rest)

def takeFraction (bs : List UInt8) : Option (List UInt8 × List UInt8) :=
  match bs with
  | [] => some ([], [])
  | b :: rest =>
    if b = byte '.' then mapTaken (fun digits => b :: digits) (takeDigits rest)
    else some ([], b :: rest)

def takeExponent (bs : List UInt8) : Option (List UInt8 × List UInt8) :=
  match bs with
  | [] => some ([], [])
  | b :: rest =>
    if b = byte 'e' ∨ b = byte 'E' then
      match rest with
      | [] => none
      | s :: after =>
        if s = byte '+' ∨ s = byte '-' then
          mapTaken (fun digits => b :: s :: digits) (takeDigits after)
        else mapTaken (fun digits => b :: digits) (takeDigits rest)
    else some ([], b :: rest)

def takeUnsigned (bs : List UInt8) : Option (List UInt8 × List UInt8) := do
  let (whole, rest) ← takeWhole bs
  let (fraction, rest) ← takeFraction rest
  let (exponent, rest) ← takeExponent rest
  some (whole ++ fraction ++ exponent, rest)

def takeKeyword (keyword : List UInt8) (bs : List UInt8) : Option (List UInt8) :=
  if keyword.isPrefixOf bs then some (bs.drop keyword.length) else none

def punctuation? (b : UInt8) : Option Token :=
  if b = byte '[' then some .beginArray
  else if b = byte ']' then some .endArray
  else if b = byte '{' then some .beginObject
  else if b = byte '}' then some .endObject
  else if b = byte ':' then some .colon
  else if b = byte ',' then some .comma
  else none

def keyword? (b : UInt8) (rest : List UInt8) : Option (Token × List UInt8) :=
  if b = byte 'n' then (takeKeyword (bytes "ull") rest).map fun after => (.null, after)
  else if b = byte 't' then (takeKeyword (bytes "rue") rest).map fun after => (.boolean true, after)
  else if b = byte 'f' then
    (takeKeyword (bytes "alse") rest).map fun after => (.boolean false, after)
  else none

def Token.first (b : UInt8) (rest : List UInt8) : Option (Token × List UInt8) :=
  match punctuation? b with
  | some t => some (t, rest)
  | none =>
    if b = byte '"' then mapTaken string (takeString rest)
    else if b = byte '-' then mapTaken (fun n => number (b :: n)) (takeUnsigned rest)
    else if isDigit b then mapTaken number (takeUnsigned (b :: rest))
    else keyword? b rest

theorem mapTaken_eq_some {α β : Type} {f : α → β} {o : Option (α × List UInt8)} {t : β}
    {after : List UInt8} (h : mapTaken f o = some (t, after)) : ∃ s, o = some (s, after) := by
  obtain ⟨⟨s, a⟩, ha, he⟩ := Option.map_eq_some_iff.1 h
  simp only [Prod.mk.injEq] at he
  exact ⟨s, by rw [ha, he.2]⟩

theorem takeString_length {bs s after : List UInt8} (h : takeString bs = some (s, after)) :
    after.length < bs.length := by
  fun_induction takeString bs generalizing s after
  all_goals try simp_all
  all_goals
    obtain ⟨t, ht⟩ := mapTaken_eq_some h
    rename_i ih
    have shorter := ih ht
    omega

theorem takeDigits_length {bs digits after : List UInt8}
    (h : takeDigits bs = some (digits, after)) : after.length < bs.length := by
  unfold takeDigits at h
  simp only at h
  split at h
  · simp at h
  · rename_i nonempty
    simp only [Option.some.injEq, Prod.mk.injEq] at h
    have whole := congrArg List.length (List.takeWhile_append_dropWhile (p := isDigit) (l := bs))
    rw [← h.2]
    have positive : 0 < (bs.takeWhile isDigit).length := by
      rcases hd : bs.takeWhile isDigit with _ | ⟨d, ds⟩
      · simp [hd] at nonempty
      · simp
    simp only [List.length_append] at whole
    omega

theorem takeWhole_length {bs digits after : List UInt8} (h : takeWhole bs = some (digits, after)) :
    after.length < bs.length := by
  unfold takeWhole at h
  split at h
  · simp at h
  · rename_i d r hd
    split at h
    · simp at h
    · simp only [Option.some.injEq, Prod.mk.injEq] at h
      rw [← h.2]
      exact takeDigits_length hd

theorem takeFraction_length {bs digits after : List UInt8}
    (h : takeFraction bs = some (digits, after)) : after.length ≤ bs.length := by
  unfold takeFraction at h
  split at h
  · simp_all
  · split at h
    · obtain ⟨t, ht⟩ := mapTaken_eq_some h
      have shorter := takeDigits_length ht
      simp only [List.length_cons]
      omega
    · simp only [Option.some.injEq, Prod.mk.injEq] at h
      exact Nat.le_of_eq (congrArg List.length h.2.symm)

theorem takeExponent_length {bs digits after : List UInt8}
    (h : takeExponent bs = some (digits, after)) : after.length ≤ bs.length := by
  unfold takeExponent at h
  split at h
  · simp_all
  · split at h
    · split at h
      · simp at h
      · split at h
        · obtain ⟨t, ht⟩ := mapTaken_eq_some h
          have shorter := takeDigits_length ht
          simp only [List.length_cons]
          omega
        · obtain ⟨t, ht⟩ := mapTaken_eq_some h
          have shorter := takeDigits_length ht
          simp only [List.length_cons] at shorter ⊢
          omega
    · simp only [Option.some.injEq, Prod.mk.injEq] at h
      exact Nat.le_of_eq (congrArg List.length h.2.symm)

theorem takeUnsigned_length {bs n after : List UInt8} (h : takeUnsigned bs = some (n, after)) :
    after.length < bs.length := by
  unfold takeUnsigned at h
  simp only [Option.bind_eq_bind, Option.bind_eq_some_iff, Option.some.injEq, Prod.mk.injEq] at h
  obtain ⟨⟨w, r1⟩, hw, ⟨f, r2⟩, hf, ⟨e, r3⟩, he, -, rfl⟩ := h
  have a : r1.length < bs.length := takeWhole_length hw
  have b : r2.length ≤ r1.length := takeFraction_length hf
  have c : r3.length ≤ r2.length := takeExponent_length he
  exact Nat.lt_of_le_of_lt (Nat.le_trans c b) a

theorem takeKeyword_length {keyword bs after : List UInt8}
    (h : takeKeyword keyword bs = some after) : after.length ≤ bs.length := by
  unfold takeKeyword at h
  split at h
  · simp only [Option.some.injEq] at h
    simp [← h]
  · simp at h

theorem keyword_length {b : UInt8} {rest after : List UInt8} {t : Token}
    (h : keyword? b rest = some (t, after)) : after.length ≤ rest.length := by
  unfold keyword? at h
  repeat' split at h
  all_goals first
    | simp at h; done
    | obtain ⟨a, ha, he⟩ := Option.map_eq_some_iff.1 h
      simp only [Prod.mk.injEq] at he
      rw [← he.2]
      exact takeKeyword_length ha

/-- What follows a token is never longer than what followed its first byte. -/
theorem Token.first_length {b : UInt8} {rest after : List UInt8} {t : Token}
    (h : first b rest = some (t, after)) : after.length ≤ rest.length := by
  unfold first at h
  split at h
  · simp only [Option.some.injEq, Prod.mk.injEq] at h
    exact Nat.le_of_eq (congrArg List.length h.2.symm)
  split at h
  · obtain ⟨s, hs⟩ := mapTaken_eq_some h
    exact Nat.le_of_lt (takeString_length hs)
  split at h
  · obtain ⟨s, hs⟩ := mapTaken_eq_some h
    exact Nat.le_of_lt (takeUnsigned_length hs)
  split at h
  · obtain ⟨s, hs⟩ := mapTaken_eq_some h
    exact Nat.le_of_lt_succ (takeUnsigned_length hs)
  exact keyword_length h

/-- The tokens of a JSON text, unless some byte begins none. -/
def tokens : List UInt8 → Option (List Token)
  | [] => some []
  | b :: rest =>
    if isSpace b then tokens rest
    else
      match _taken : Token.first b rest with
      | none => none
      | some (t, after) => (tokens after).map (t :: ·)
termination_by bs => bs.length
decreasing_by
  · simp
  · exact Nat.lt_succ_of_le (Token.first_length _taken)

end Colloquy.Json
