import Colloquy.Json.Text
import Colloquy.Proofs.Utf8

/-!
Written strings of JSON read back. Both readings of a string, the one that finds its end and the one
that resolves its escapes, pass over what is written for one character as a whole.
-/

namespace Colloquy.Json

theorem mapTaken_mapTaken {α β γ : Type} (f : α → β) (g : β → γ)
    (o : Option (α × List UInt8)) : mapTaken g (mapTaken f o) = mapTaken (g ∘ f) o := by
  cases o <;> rfl

/-- Bytes inside a string that stand for others, whatever follows them. -/
def Stands (written meant : List UInt8) : Prop :=
  ∀ rest, takeString (written ++ rest) = mapTaken (written ++ ·) (takeString rest) ∧
    resolveEscapes (written ++ rest) = (resolveEscapes rest).map (meant ++ ·)

theorem stands_nil : Stands [] [] := by
  intro rest
  refine ⟨?_, ?_⟩
  · cases h : takeString rest <;> simp [mapTaken, h]
  · cases h : resolveEscapes rest <;> simp [h]

theorem stands_append {w₁ w₂ m₁ m₂ : List UInt8} (h₁ : Stands w₁ m₁) (h₂ : Stands w₂ m₂) :
    Stands (w₁ ++ w₂) (m₁ ++ m₂) := by
  intro rest
  obtain ⟨ht₁, hr₁⟩ := h₁ (w₂ ++ rest)
  obtain ⟨ht₂, hr₂⟩ := h₂ rest
  refine ⟨?_, ?_⟩
  · rw [List.append_assoc, ht₁, ht₂, mapTaken_mapTaken]
    congr 1
    funext s
    simp
  · rw [List.append_assoc, hr₁, hr₂, Option.map_map]
    congr 1
    funext s
    simp

/-- A byte that stands for itself. -/
theorem stands_plain {b : UInt8} (hspace : 0x20 ≤ b.toNat) (hquote : b.toNat ≠ 34)
    (hback : b.toNat ≠ 92) : Stands [b] [b] := by
  have hlow : ¬ b < 0x20 := by
    rw [UInt8.lt_iff_toNat_lt]
    exact Nat.not_lt.2 hspace
  have hne (c : UInt8) (h : b.toNat ≠ c.toNat) : b ≠ c := fun he => h (he ▸ rfl)
  intro rest
  refine ⟨?_, ?_⟩
  · rw [List.singleton_append, takeString.eq_def]
    simp only [if_neg (hne (byte '"') hquote), if_neg hlow, if_neg (hne (byte '\\') hback)]
    rfl
  · rw [List.singleton_append, resolveEscapes.eq_def]
    simp only [if_neg (hne (byte '\\') hback)]
    rfl

theorem stands_plain_all {bs : List UInt8}
    (h : ∀ b ∈ bs, 0x20 ≤ b.toNat ∧ b.toNat ≠ 34 ∧ b.toNat ≠ 92) : Stands bs bs := by
  induction bs with
  | nil => exact stands_nil
  | cons b bs ih =>
    obtain ⟨hspace, hquote, hback⟩ := h b List.mem_cons_self
    exact stands_append (stands_plain hspace hquote hback)
      (ih fun d hd => h d (List.mem_cons_of_mem b hd))

theorem stands_short {e : UInt8} (hshort : isShortEscape e = true) (hu : e ≠ byte 'u') :
    Stands [byte '\\', e] [shortEscape e] := by
  intro rest
  refine ⟨?_, ?_⟩
  · change takeString (byte '\\' :: e :: rest) = _
    rw [takeString.eq_def]
    simp only [if_pos hshort, if_neg (show byte '\\' ≠ byte '"' by decide),
      if_neg (show ¬ byte '\\' < 0x20 by decide), if_true]
    rfl
  · change resolveEscapes (byte '\\' :: e :: rest) = _
    rw [resolveEscapes.eq_def]
    simp only [if_neg hu, if_true]
    rfl

theorem stands_unit {h₁ h₂ h₃ h₄ : UInt8} (hd₁ : isHexDigit h₁ = true) (hd₂ : isHexDigit h₂ = true)
    (hd₃ : isHexDigit h₃ = true) (hd₄ : isHexDigit h₄ = true)
    (hsmall : hexUnit h₁ h₂ h₃ h₄ < 0xD800) :
    Stands [byte '\\', byte 'u', h₁, h₂, h₃, h₄]
      (String.utf8EncodeChar (Char.ofNat (hexUnit h₁ h₂ h₃ h₄))) := by
  have htrailing : isTrailing (hexUnit h₁ h₂ h₃ h₄) = false := by
    simp only [isTrailing, Bool.and_eq_false_iff, decide_eq_false_iff_not]
    omega
  have hleading : isLeading (hexUnit h₁ h₂ h₃ h₄) = false := by
    simp only [isLeading, Bool.and_eq_false_iff, decide_eq_false_iff_not]
    omega
  intro rest
  refine ⟨?_, ?_⟩
  · change takeString (byte '\\' :: byte 'u' :: h₁ :: h₂ :: h₃ :: h₄ :: rest) = _
    rw [takeString.eq_def]
    simp only [if_neg (show byte '\\' ≠ byte '"' by decide),
      if_neg (show ¬ byte '\\' < 0x20 by decide),
      if_neg (show ¬ isShortEscape (byte 'u') = true by decide), hd₁, hd₂, hd₃, hd₄, Bool.and_self,
      if_true]
    rfl
  · change resolveEscapes (byte '\\' :: byte 'u' :: h₁ :: h₂ :: h₃ :: h₄ :: rest) = _
    rw [resolveEscapes.eq_def]
    simp only [htrailing, hleading, Bool.false_eq_true, if_false, if_true]

/-- The bytes of a character below U+0080. -/
theorem encode_ascii {c : Char} (h : c.toNat ≤ 0x7f) (cs : List Char) :
    Utf8.encode (c :: cs) = .ofNat c.toNat :: Utf8.encode cs := by
  rw [Utf8.encode_cons, Utf8.encodeChar_one h]
  rfl

theorem stands_control {c : Char} (h : c.toNat < 0x20) :
    Stands (Utf8.encode (escapeControl c)) (String.utf8EncodeChar c) := by
  -- There are only 32 of them, so their hexadecimal digits are checked one after another.
  have hall : ∀ n < 32,
      Utf8.encode ['\\', 'u', '0', '0', Nat.digitChar (n / 16), Nat.digitChar (n % 16)] =
        [byte '\\', byte 'u', byte '0', byte '0', byte (Nat.digitChar (n / 16)),
          byte (Nat.digitChar (n % 16))] ∧
      isHexDigit (byte (Nat.digitChar (n / 16))) = true ∧
      isHexDigit (byte (Nat.digitChar (n % 16))) = true ∧
      hexUnit (byte '0') (byte '0') (byte (Nat.digitChar (n / 16)))
        (byte (Nat.digitChar (n % 16))) = n := by decide
  obtain ⟨hbytes, hhigh, hlow, hunit⟩ := hall c.toNat h
  have hzero : isHexDigit (byte '0') = true := by decide
  have hstands := stands_unit hzero hzero hhigh hlow (by omega)
  rw [hunit, Char.ofNat_toNat] at hstands
  rw [escapeControl, hbytes]
  exact hstands

/-- What is written for a character stands for its bytes. -/
theorem stands_escapeChar (c : Char) :
    Stands (Utf8.encode (escapeChar c)) (String.utf8EncodeChar c) := by
  have hshort (d e : Char) (hc : c = d) (hshort : isShortEscape (byte e) = true)
      (hu : byte e ≠ byte 'u') (hbytes : Utf8.encode ['\\', e] = [byte '\\', byte e])
      (hmeant : String.utf8EncodeChar d = [shortEscape (byte e)]) :
      Stands (Utf8.encode ['\\', e]) (String.utf8EncodeChar c) := by
    rw [hbytes, hc, hmeant]
    exact stands_short hshort hu
  unfold escapeChar
  split
  · exact hshort '"' '"' ‹_› (by decide) (by decide) (by decide) (by decide)
  split
  · exact hshort '\\' '\\' ‹_› (by decide) (by decide) (by decide) (by decide)
  split
  · exact hshort '\x08' 'b' ‹_› (by decide) (by decide) (by decide) (by decide)
  split
  · exact hshort '\x0c' 'f' ‹_› (by decide) (by decide) (by decide) (by decide)
  split
  · exact hshort '\n' 'n' ‹_› (by decide) (by decide) (by decide) (by decide)
  split
  · exact hshort '\r' 'r' ‹_› (by decide) (by decide) (by decide) (by decide)
  split
  · exact hshort '\t' 't' ‹_› (by decide) (by decide) (by decide) (by decide)
  split
  · exact stands_control ‹_›
  -- What is left is written as it is: one byte in ASCII, and bytes past ASCII otherwise.
  rename_i hquote hback _ _ _ _ _ hspace
  have hne (d : Char) (h : c ≠ d) : c.toNat ≠ d.toNat := fun he => h (Char.toNat_inj.1 he)
  have hself : Utf8.encode [c] = String.utf8EncodeChar c := List.append_nil _
  rw [hself]
  by_cases hascii : c.toNat ≤ 0x7f
  · have hlt : c.toNat < 256 := by omega
    have hbyte := Utf8.toNat_ofNat_of_lt hlt
    rw [Utf8.encodeChar_one hascii]
    refine stands_plain ?_ ?_ ?_
    · rw [hbyte]
      exact Nat.not_lt.1 hspace
    · rw [hbyte]
      exact hne '"' hquote
    · rw [hbyte]
      exact hne '\\' hback
  · refine stands_plain_all fun b hb => ?_
    have hhigh := Utf8.encodeChar_high (Nat.lt_of_not_le hascii) b hb
    omega

theorem stands_escape (cs : List Char) :
    Stands (Utf8.encode (cs.flatMap escapeChar)) (Utf8.encode cs) := by
  induction cs with
  | nil => exact stands_nil
  | cons c cs ih =>
    rw [List.flatMap_cons, Utf8.encode_append, Utf8.encode_cons]
    exact stands_append (stands_escapeChar c) ih

/-- The end of a written text is the quote that was written after it. -/
theorem takeString_escape (cs : List Char) (rest : List UInt8) :
    takeString (Utf8.encode (cs.flatMap escapeChar) ++ byte '"' :: rest) =
      some (Utf8.encode (cs.flatMap escapeChar), rest) := by
  rw [(stands_escape cs _).1, takeString.eq_def]
  simp [mapTaken]

theorem unquote_escape (cs : List Char) :
    unquote (Utf8.encode (cs.flatMap escapeChar)) = some cs := by
  have hresolve : resolveEscapes (Utf8.encode (cs.flatMap escapeChar)) = some (Utf8.encode cs) := by
    have h := (stands_escape cs []).2
    simpa [resolveEscapes] using h
  rw [unquote, hresolve]
  exact Utf8.decode_encode cs

theorem encode_quote (cs : List Char) :
    Utf8.encode (quote cs) = byte '"' :: Utf8.encode (cs.flatMap escapeChar) ++ [byte '"'] := by
  rw [quote, Utf8.encode_append, encode_ascii (by decide)]
  rfl

end Colloquy.Json
