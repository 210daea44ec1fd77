import Colloquy.Decimal
import Colloquy.Proofs.Decimal
import Colloquy.Proofs.Json.Text

/-!
The tokens of written JSON. What is written is cut into its tokens whatever follows it, as long as
a number does not go on there.
-/

namespace Colloquy.Json

/-- The bytes that are tokens by themselves. -/
theorem punctuation?_cases {b : UInt8} {t : Token} (h : punctuation? b = some t) :
    b = byte '[' ∨ b = byte ']' ∨ b = byte '{' ∨ b = byte '}' ∨ b = byte ':' ∨ b = byte ',' := by
  unfold punctuation? at h
  repeat' split at h
  -- in the last case there is no token
  case isFalse.isFalse.isFalse.isFalse.isFalse.isFalse => cases h
  all_goals simp [*]

section Digit
variable {b : UInt8} (hb : isDigit b = true)
include hb

theorem ne_of_isDigit {d : UInt8} (hd : isDigit d = false) : b ≠ d := by
  rintro rfl
  rw [hb] at hd
  cases hd

theorem isSpace_of_isDigit : isSpace b = false := by
  have hblank : b ≠ byte ' ' := ne_of_isDigit hb (by decide)
  have htab : b ≠ byte '\t' := ne_of_isDigit hb (by decide)
  have hfeed : b ≠ byte '\n' := ne_of_isDigit hb (by decide)
  have hreturn : b ≠ byte '\r' := ne_of_isDigit hb (by decide)
  simp [isSpace, hblank, htab, hfeed, hreturn]

theorem punctuation?_of_isDigit : punctuation? b = none := by
  rw [Option.eq_none_iff_forall_ne_some]
  intro t ht
  have hne : isDigit b = false := by
    rcases punctuation?_cases ht with rfl | rfl | rfl | rfl | rfl | rfl <;> decide
  exact ne_of_isDigit hb hne rfl

end Digit

theorem tokens_cons {b : UInt8} {rest after : List UInt8} {t : Token} (hspace : isSpace b = false)
    (hfirst : Token.first b rest = some (t, after)) :
    tokens (b :: rest) = (tokens after).map (t :: ·) := by
  rw [tokens]
  split
  · simp_all
  · split
    · simp_all
    · simp_all

/-- The text does not go on as a number would. -/
def EndsNumber (rest : List UInt8) : Prop :=
  ∀ b ∈ rest.head?, isDigit b = false ∧ b ≠ byte '.' ∧ b ≠ byte 'e' ∧ b ≠ byte 'E'

/-- The bytes are cut into the tokens, whatever follows that is no part of a number. -/
def Spells (bs : List UInt8) (ts : List Token) : Prop :=
  ∀ rest, EndsNumber rest → tokens (bs ++ rest) = (tokens rest).map (ts ++ ·)

theorem endsNumber_nil : EndsNumber [] := by
  intro b hb
  simp at hb

theorem endsNumber_cons {b : UInt8} (hdigit : isDigit b = false) (hpoint : b ≠ byte '.')
    (he : b ≠ byte 'e') (hE : b ≠ byte 'E') (rest : List UInt8) : EndsNumber (b :: rest) := by
  intro d hd
  rw [List.head?_cons, Option.mem_some] at hd
  subst hd
  exact ⟨hdigit, hpoint, he, hE⟩

theorem endsNumber_punctuation {b : UInt8} {t : Token} (h : punctuation? b = some t)
    (rest : List UInt8) : EndsNumber (b :: rest) := by
  have hother : isDigit b = false ∧ b ≠ byte '.' ∧ b ≠ byte 'e' ∧ b ≠ byte 'E' := by
    rcases punctuation?_cases h with rfl | rfl | rfl | rfl | rfl | rfl <;> decide
  obtain ⟨hdigit, hpoint, he, hE⟩ := hother
  exact endsNumber_cons hdigit hpoint he hE rest

theorem spells_nil : Spells [] [] := by
  intro rest _
  cases h : tokens rest <;> simp [h]

/-- Bytes after which a number cannot go on may follow any others. -/
theorem spells_append {bs₁ bs₂ : List UInt8} {ts₁ ts₂ : List Token} (h₁ : Spells bs₁ ts₁)
    (hends : ∀ rest, EndsNumber rest → EndsNumber (bs₂ ++ rest)) (h₂ : Spells bs₂ ts₂) :
    Spells (bs₁ ++ bs₂) (ts₁ ++ ts₂) := by
  intro rest hrest
  rw [List.append_assoc, h₁ _ (hends rest hrest), h₂ rest hrest, Option.map_map]
  congr 1
  funext ts
  simp

theorem spells_punctuation {b : UInt8} {t : Token} (h : punctuation? b = some t)
    {bs : List UInt8} {ts : List Token} (hbs : Spells bs ts) : Spells (b :: bs) (t :: ts) := by
  have hspace : isSpace b = false := by
    rcases punctuation?_cases h with rfl | rfl | rfl | rfl | rfl | rfl <;> decide
  intro rest hrest
  have hfirst : Token.first b (bs ++ rest) = some (t, bs ++ rest) := by
    rw [Token.first, h]
  rw [List.cons_append, tokens_cons hspace hfirst, hbs rest hrest, Option.map_map]
  rfl

theorem spells_string (cs : List Char) :
    Spells (Utf8.encode (quote cs)) [.string (Utf8.encode (cs.flatMap escapeChar))] := by
  intro rest _
  have hfirst : Token.first (byte '"')
      (Utf8.encode (cs.flatMap escapeChar) ++ byte '"' :: rest) =
        some (.string (Utf8.encode (cs.flatMap escapeChar)), rest) := by
    have hnone : punctuation? (byte '"') = none := by decide
    rw [Token.first, hnone, takeString_escape]
    rfl
  rw [encode_quote, List.cons_append, List.cons_append, List.append_assoc, List.singleton_append,
    tokens_cons (by decide) hfirst]
  rfl

/-- The bytes of ASCII characters. -/
theorem encode_eq_map_byte {cs : List Char} (h : ∀ c ∈ cs, c.toNat ≤ 0x7f) :
    Utf8.encode cs = cs.map byte := by
  induction cs with
  | nil => rfl
  | cons c cs ih =>
    rw [encode_ascii (h c List.mem_cons_self), ih fun d hd => h d (List.mem_cons_of_mem c hd)]
    rfl

theorem toNat_byte {c : Char} (h : c.toNat ≤ 0x7f) : (byte c).toNat = c.toNat := by
  have hlt : c.toNat < 256 := by omega
  exact Utf8.toNat_ofNat_of_lt hlt

theorem ascii_map_byte {cs : List Char} (h : ∀ c ∈ cs, c.toNat ≤ 0x7f) :
    (cs.map byte).map (fun b => Char.ofNat b.toNat) = cs := by
  rw [List.map_map]
  conv => rhs; rw [← List.map_id cs]
  refine List.map_congr_left fun c hc => ?_
  rw [Function.comp_apply, toNat_byte (h c hc), Char.ofNat_toNat]
  rfl

theorem isDigit_byte {c : Char} (h : Decimal.isDigit c = true) :
    isDigit (byte c) = true ∧ c.toNat ≤ 0x7f := by
  simp only [Decimal.isDigit, Bool.and_eq_true, decide_eq_true_eq] at h
  have hlo : 48 ≤ c.toNat := h.1
  have hhi : c.toNat ≤ 57 := h.2
  have hascii : c.toNat ≤ 0x7f := by omega
  refine ⟨?_, hascii⟩
  simp only [isDigit, Bool.and_eq_true, decide_eq_true_eq, UInt8.le_iff_toNat_le,
    toNat_byte hascii]
  exact ⟨hlo, hhi⟩

theorem encode_ofNat (n : Nat) : Utf8.encode (Decimal.ofNat n) = (Decimal.ofNat n).map byte :=
  encode_eq_map_byte fun _ hc => (isDigit_byte (Decimal.isDigit_of_mem_ofNat hc)).2

theorem isDigit_of_mem_encode {n : Nat} {b : UInt8} (h : b ∈ Utf8.encode (Decimal.ofNat n)) :
    isDigit b = true := by
  rw [encode_ofNat] at h
  obtain ⟨c, hc, rfl⟩ := List.mem_map.1 h
  exact (isDigit_byte (Decimal.isDigit_of_mem_ofNat hc)).1

theorem takeDigits_ofNat (n : Nat) {rest : List UInt8} (hrest : EndsNumber rest) :
    takeDigits (Utf8.encode (Decimal.ofNat n) ++ rest) =
      some (Utf8.encode (Decimal.ofNat n), rest) := by
  have hd : ∀ b ∈ Utf8.encode (Decimal.ofNat n), isDigit b = true := fun b =>
    isDigit_of_mem_encode
  have hne : (Utf8.encode (Decimal.ofNat n)).isEmpty = false := by
    rw [encode_ofNat]
    simp [Decimal.ofNat_ne_nil n]
  obtain ⟨htake, hdrop⟩ := Decimal.span_run hd fun b hb => (hrest b hb).1
  simp only [takeDigits, htake, hdrop, hne, Bool.false_eq_true, if_false]

theorem takeWhole_ofNat (n : Nat) {rest : List UInt8} (hrest : EndsNumber rest) :
    takeWhole (Utf8.encode (Decimal.ofNat n) ++ rest) =
      some (Utf8.encode (Decimal.ofNat n), rest) := by
  -- A zero in front of other digits is refused, but only zero itself is written with one.
  have hzero : ¬ ((Utf8.encode (Decimal.ofNat n)).head? = some (byte '0') ∧
      (Utf8.encode (Decimal.ofNat n)).length ≠ 1) := by
    rintro ⟨hhead, hlen⟩
    rw [encode_ofNat, List.head?_map, Option.map_eq_some_iff] at hhead
    obtain ⟨c, hc, hbyte⟩ := hhead
    have hascii := (isDigit_byte (Decimal.isDigit_of_mem_ofNat (List.mem_of_head? hc))).2
    have hcode : c.toNat = '0'.toNat := by
      rw [← toNat_byte hascii, hbyte]
      rfl
    rw [Char.toNat_inj.1 hcode] at hc
    by_cases hn : 0 < n
    · exact Decimal.head_ofNat hn hc
    · have hn : n = 0 := by omega
      subst hn
      exact hlen rfl
  rw [takeWhole, takeDigits_ofNat n hrest]
  simp only [Bool.and_eq_true, decide_eq_true_eq, if_neg hzero]

/-- A whole number is taken up to what ends it. -/
theorem takeUnsigned_ofNat (n : Nat) {rest : List UInt8} (hrest : EndsNumber rest) :
    takeUnsigned (Utf8.encode (Decimal.ofNat n) ++ rest) =
      some (Utf8.encode (Decimal.ofNat n), rest) := by
  have hfraction : takeFraction rest = some ([], rest) := by
    cases rest with
    | nil => rfl
    | cons b rest => simp [takeFraction, (hrest b rfl).2.1]
  have hexponent : takeExponent rest = some ([], rest) := by
    cases rest with
    | nil => rfl
    | cons b rest => simp [takeExponent, (hrest b rfl).2.2.1, (hrest b rfl).2.2.2]
  simp [takeUnsigned, takeWhole_ofNat n hrest, hfraction, hexponent]

theorem spells_ofNat (n : Nat) :
    Spells (Utf8.encode (Decimal.ofNat n)) [.number (Utf8.encode (Decimal.ofNat n))] := by
  intro rest hrest
  have htake := takeUnsigned_ofNat n hrest
  have hd : ∀ b ∈ Utf8.encode (Decimal.ofNat n), isDigit b = true := fun b =>
    isDigit_of_mem_encode
  cases hdigits : Utf8.encode (Decimal.ofNat n) with
  | nil =>
    have hne := Decimal.ofNat_ne_nil n
    rw [encode_ofNat, List.map_eq_nil_iff] at hdigits
    exact absurd hdigits hne
  | cons b bs =>
    rw [hdigits] at htake hd
    have hdigit := hd b List.mem_cons_self
    have hspace : isSpace b = false := isSpace_of_isDigit hdigit
    have hquote : b ≠ byte '"' := ne_of_isDigit hdigit (by decide)
    have hminus : b ≠ byte '-' := ne_of_isDigit hdigit (by decide)
    have hfirst : Token.first b (bs ++ rest) = some (.number (b :: bs), rest) := by
      rw [Token.first, punctuation?_of_isDigit hdigit]
      simp only [if_neg hquote, if_neg hminus, hdigit, if_true]
      rw [← List.cons_append, htake]
      rfl
    rw [List.cons_append, tokens_cons hspace hfirst]
    rfl

theorem spells_ofInt (n : Int) :
    Spells (Utf8.encode (Decimal.ofInt n)) [.number (Utf8.encode (Decimal.ofInt n))] := by
  cases n with
  | ofNat m => exact spells_ofNat m
  | negSucc m =>
    intro rest hrest
    have hbytes : Utf8.encode (Decimal.ofInt (.negSucc m)) =
        byte '-' :: Utf8.encode (Decimal.ofNat (m + 1)) := encode_ascii (by decide) _
    have hnone : punctuation? (byte '-') = none := by decide
    have hfirst : Token.first (byte '-') (Utf8.encode (Decimal.ofNat (m + 1)) ++ rest) =
        some (.number (byte '-' :: Utf8.encode (Decimal.ofNat (m + 1))), rest) := by
      rw [Token.first, hnone]
      simp only [if_neg (show byte '-' ≠ byte '"' by decide), if_true]
      rw [takeUnsigned_ofNat (m + 1) hrest]
      rfl
    rw [hbytes, List.cons_append, tokens_cons (by decide) hfirst]
    rfl

theorem spells_keyword {b : UInt8} {keyword : List UInt8} {t : Token} (hspace : isSpace b = false)
    (hfirst : ∀ rest, Token.first b (keyword ++ rest) = some (t, rest)) :
    Spells (b :: keyword) [t] := by
  intro rest _
  rw [List.cons_append, tokens_cons hspace (hfirst rest)]
  rfl

theorem spells_true : Spells (Utf8.encode ['t', 'r', 'u', 'e']) [.boolean true] :=
  spells_keyword (b := byte 't') (by decide) fun _ => rfl

theorem spells_false : Spells (Utf8.encode ['f', 'a', 'l', 's', 'e']) [.boolean false] :=
  spells_keyword (b := byte 'f') (by decide) fun _ => rfl

end Colloquy.Json
