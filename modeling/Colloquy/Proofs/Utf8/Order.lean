import Colloquy.Proofs.Utf8

/-!
UTF-8 keeps the order of texts: they stand in the same order by their bytes as by their characters.
-/

namespace Colloquy.Utf8

theorem ofNat_cons_lt {a b : Nat} {as bs : List UInt8} (hb : b < 256)
    (h : a < b ∨ a = b ∧ as < bs) : UInt8.ofNat a :: as < UInt8.ofNat b :: bs := by
  apply List.cons_lt_cons_iff.2
  rcases h with hlt | ⟨rfl, hrest⟩
  · left
    have ha : a < 256 := Nat.lt_trans hlt hb
    rw [UInt8.lt_iff_toNat_lt, toNat_ofNat_of_lt ha, toNat_ofNat_of_lt hb]
    exact hlt
  · exact .inr ⟨rfl, hrest⟩

/-- The bytes of the smaller of two characters come first, whatever follows them. -/
theorem encodeChar_append_lt {c d : Char} (h : c < d) (x y : List UInt8) :
    String.utf8EncodeChar c ++ x < String.utf8EncodeChar d ++ y := by
  have hlt : c.toNat < d.toNat := h
  have hmax := toNat_char_lt d
  -- A longer encoding begins with a larger byte. Two of one length are compared group by group,
  -- and the first group that differs is larger in the larger character.
  by_cases c1 : c.toNat ≤ 0x7f
  · rw [encodeChar_one c1]
    by_cases d1 : d.toNat ≤ 0x7f
    · rw [encodeChar_one d1]
      exact ofNat_cons_lt (by omega) (.inl hlt)
    by_cases d2 : d.toNat ≤ 0x7ff
    · rw [encodeChar_two d1 d2]
      exact ofNat_cons_lt (by omega) (.inl (by omega))
    by_cases d3 : d.toNat ≤ 0xffff
    · rw [encodeChar_three d1 d2 d3]
      exact ofNat_cons_lt (by omega) (.inl (by omega))
    · rw [encodeChar_four d1 d2 d3]
      exact ofNat_cons_lt (by omega) (.inl (by omega))
  have d1 : ¬ d.toNat ≤ 0x7f := by omega
  by_cases c2 : c.toNat ≤ 0x7ff
  · rw [encodeChar_two c1 c2]
    by_cases d2 : d.toNat ≤ 0x7ff
    · rw [encodeChar_two d1 d2]
      refine ofNat_cons_lt (by omega) ?_
      by_cases hhigh : c.toNat / 64 < d.toNat / 64
      · exact .inl (by omega)
      · exact .inr ⟨by omega, ofNat_cons_lt (by omega) (.inl (by omega))⟩
    by_cases d3 : d.toNat ≤ 0xffff
    · rw [encodeChar_three d1 d2 d3]
      exact ofNat_cons_lt (by omega) (.inl (by omega))
    · rw [encodeChar_four d1 d2 d3]
      exact ofNat_cons_lt (by omega) (.inl (by omega))
  have d2 : ¬ d.toNat ≤ 0x7ff := by omega
  by_cases c3 : c.toNat ≤ 0xffff
  · rw [encodeChar_three c1 c2 c3]
    by_cases d3 : d.toNat ≤ 0xffff
    · rw [encodeChar_three d1 d2 d3]
      refine ofNat_cons_lt (by omega) ?_
      by_cases hhigh : c.toNat / 4096 < d.toNat / 4096
      · exact .inl (by omega)
      refine .inr ⟨by omega, ofNat_cons_lt (by omega) ?_⟩
      by_cases hmiddle : c.toNat / 64 < d.toNat / 64
      · exact .inl (by omega)
      · exact .inr ⟨by omega, ofNat_cons_lt (by omega) (.inl (by omega))⟩
    · rw [encodeChar_four d1 d2 d3]
      exact ofNat_cons_lt (by omega) (.inl (by omega))
  have d3 : ¬ d.toNat ≤ 0xffff := by omega
  rw [encodeChar_four c1 c2 c3, encodeChar_four d1 d2 d3]
  refine ofNat_cons_lt (by omega) ?_
  by_cases hhigh : c.toNat / 262144 < d.toNat / 262144
  · exact .inl (by omega)
  refine .inr ⟨by omega, ofNat_cons_lt (by omega) ?_⟩
  by_cases hsecond : c.toNat / 4096 < d.toNat / 4096
  · exact .inl (by omega)
  refine .inr ⟨by omega, ofNat_cons_lt (by omega) ?_⟩
  by_cases hthird : c.toNat / 64 < d.toNat / 64
  · exact .inl (by omega)
  · exact .inr ⟨by omega, ofNat_cons_lt (by omega) (.inl (by omega))⟩

theorem encode_lt_encode {cs ds : List Char} (h : cs < ds) : encode cs < encode ds := by
  induction cs generalizing ds with
  | nil =>
    cases ds with
    | nil => cases h
    | cons d ds =>
      -- no character is without bytes
      obtain ⟨a, rest, hd, -⟩ := first_encodeChar d []
      rw [encode_cons, hd]
      exact List.nil_lt_cons a _
  | cons c cs ih =>
    cases ds with
    | nil => cases h
    | cons d ds =>
      rw [encode_cons, encode_cons]
      rcases List.cons_lt_cons_iff.1 h with hlt | ⟨rfl, hrest⟩
      · exact encodeChar_append_lt hlt _ _
      · exact List.append_left_lt (ih hrest)

end Colloquy.Utf8
