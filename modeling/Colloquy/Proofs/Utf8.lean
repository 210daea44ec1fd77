import Colloquy.Utf8

/-!
The bytes of a character are read back as that character and leave what follows them.
-/

namespace Colloquy.Utf8

theorem toNat_ofNat_of_lt {n : Nat} (h : n < 256) : (UInt8.ofNat n).toNat = n := by
  rw [UInt8.toNat_ofNat']
  exact Nat.mod_eq_of_lt h

theorem isContinuation_eq (b : UInt8) :
    isContinuation b = (decide (0x80 ≤ b.toNat) && decide (b.toNat < 0xC0)) := by
  simp [isContinuation, UInt8.le_iff_toNat_le, UInt8.lt_iff_toNat_lt]

/-- The bounds of a second byte, which depend on the first. -/
theorem canFollow_iff (a b : UInt8) : canFollow a b = true ↔
    (0x80 ≤ b.toNat ∧ b.toNat < 0xC0) ∧ (a.toNat = 0xE0 → 0xA0 ≤ b.toNat) ∧
      (a.toNat = 0xED → b.toNat < 0xA0) ∧ (a.toNat = 0xF0 → 0x90 ≤ b.toNat) ∧
      (a.toNat = 0xF4 → b.toNat < 0x90) := by
  have heq (k : UInt8) : a = k ↔ a.toNat = k.toNat := UInt8.toNat_inj.symm
  simp only [canFollow, isContinuation, UInt8.le_iff_toNat_le, UInt8.lt_iff_toNat_lt, heq,
    UInt8.reduceToNat]
  repeat' split
  all_goals simp only [Bool.and_eq_true, decide_eq_true_eq]
  all_goals omega

theorem toNat_char_lt (c : Char) : c.toNat < 0x110000 := by
  rcases c.valid with h | h
  · exact Nat.lt_trans h (by decide)
  · exact h.2

/-- No character lies among the surrogates. -/
theorem toNat_char_not_surrogate (c : Char) : c.toNat < 0xD800 ∨ 0xDFFF < c.toNat := by
  rcases c.valid with h | h
  · exact .inl h
  · exact .inr h.1

theorem isContinuation_low {n : Nat} (h : n < 64) :
    isContinuation (.ofNat (n + 0x80)) = true ∧ low (.ofNat (n + 0x80)) = n := by
  have hlt : n + 0x80 < 256 := by omega
  have hn := toNat_ofNat_of_lt hlt
  constructor
  · rw [isContinuation_eq, hn]
    simp only [Bool.and_eq_true, decide_eq_true_eq]
    omega
  · unfold low
    omega

/-- The first byte tells how many bytes the character has. -/
theorem first_eq {k : Nat} (hk : k < 256) (rest : List UInt8) :
    first (.ofNat k) rest =
      if k < 0x80 then (some (Char.ofNat k), rest)
      else if k < 0xC2 then (none, rest)
      else if k < 0xE0 then second (.ofNat k) rest
      else if k < 0xF0 then thirdOf (.ofNat k) rest
      else if k < 0xF5 then fourthOf (.ofNat k) rest
      else (none, rest) := by
  simp only [first, UInt8.lt_iff_toNat_lt, toNat_ofNat_of_lt hk, UInt8.reduceToNat]

theorem first_two {v : Nat} (hlo : 0x80 ≤ v) (hhi : v < 0x800) (after : List UInt8) :
    first (.ofNat (v / 64 % 0x20 + 0xc0)) (.ofNat (v % 0x40 + 0x80) :: after) =
      (some (Char.ofNat v), after) := by
  obtain ⟨hcont, hlow⟩ := isContinuation_low (Nat.mod_lt v (by decide : 0 < 0x40))
  have ha : (UInt8.ofNat (v / 64 % 0x20 + 0xc0)).toNat = v / 64 % 0x20 + 0xc0 :=
    toNat_ofNat_of_lt (by omega)
  have hv : (v / 64 % 0x20 + 0xc0 - 0xC0) * 64 + v % 0x40 = v := by omega
  rw [first_eq (by omega), if_neg (by omega), if_neg (by omega), if_pos (by omega), second,
    if_pos hcont, ha, hlow, hv]

theorem first_three {v : Nat} (hlo : 0x800 ≤ v) (hhi : v < 0x10000)
    (hs : v < 0xD800 ∨ 0xDFFF < v) (after : List UInt8) :
    first (.ofNat (v / 4096 % 0x10 + 0xe0))
        (.ofNat (v / 64 % 0x40 + 0x80) :: .ofNat (v % 0x40 + 0x80) :: after) =
      (some (Char.ofNat v), after) := by
  obtain ⟨-, hmiddle⟩ := isContinuation_low (Nat.mod_lt (v / 64) (by decide : 0 < 0x40))
  obtain ⟨hcont, hlow⟩ := isContinuation_low (Nat.mod_lt v (by decide : 0 < 0x40))
  have ha : (UInt8.ofNat (v / 4096 % 0x10 + 0xe0)).toNat = v / 4096 % 0x10 + 0xe0 :=
    toNat_ofNat_of_lt (by omega)
  have hb : (UInt8.ofNat (v / 64 % 0x40 + 0x80)).toNat = v / 64 % 0x40 + 0x80 :=
    toNat_ofNat_of_lt (by omega)
  have hfollow : canFollow (.ofNat (v / 4096 % 0x10 + 0xe0)) (.ofNat (v / 64 % 0x40 + 0x80)) =
      true := by
    rw [canFollow_iff, ha, hb]
    omega
  have hv : ((v / 4096 % 0x10 + 0xe0 - 0xE0) * 64 + v / 64 % 0x40) * 64 + v % 0x40 = v := by
    omega
  rw [first_eq (by omega), if_neg (by omega), if_neg (by omega), if_neg (by omega),
    if_pos (by omega), thirdOf, if_pos hfollow]
  simp only [if_pos hcont]
  rw [ha, hmiddle, hlow, hv]

theorem first_four {v : Nat} (hlo : 0x10000 ≤ v) (hhi : v < 0x110000) (after : List UInt8) :
    first (.ofNat (v / 262144 % 0x08 + 0xf0))
        (.ofNat (v / 4096 % 0x40 + 0x80) :: .ofNat (v / 64 % 0x40 + 0x80) ::
          .ofNat (v % 0x40 + 0x80) :: after) =
      (some (Char.ofNat v), after) := by
  obtain ⟨-, hsecond⟩ := isContinuation_low (Nat.mod_lt (v / 4096) (by decide : 0 < 0x40))
  obtain ⟨hthird, hmiddle⟩ := isContinuation_low (Nat.mod_lt (v / 64) (by decide : 0 < 0x40))
  obtain ⟨hcont, hlow⟩ := isContinuation_low (Nat.mod_lt v (by decide : 0 < 0x40))
  have ha : (UInt8.ofNat (v / 262144 % 0x08 + 0xf0)).toNat = v / 262144 % 0x08 + 0xf0 :=
    toNat_ofNat_of_lt (by omega)
  have hb : (UInt8.ofNat (v / 4096 % 0x40 + 0x80)).toNat = v / 4096 % 0x40 + 0x80 :=
    toNat_ofNat_of_lt (by omega)
  have hfollow : canFollow (.ofNat (v / 262144 % 0x08 + 0xf0)) (.ofNat (v / 4096 % 0x40 + 0x80)) =
      true := by
    rw [canFollow_iff, ha, hb]
    omega
  have hv : (((v / 262144 % 0x08 + 0xf0 - 0xF0) * 64 + v / 4096 % 0x40) * 64 +
      v / 64 % 0x40) * 64 + v % 0x40 = v := by
    omega
  rw [first_eq (by omega), if_neg (by omega), if_neg (by omega), if_neg (by omega),
    if_neg (by omega), if_pos (by omega), fourthOf, if_pos hfollow]
  simp only [if_pos hthird, if_pos hcont]
  rw [ha, hsecond, hmiddle, hlow, hv]

theorem encodeChar_one {c : Char} (h : c.toNat ≤ 0x7f) :
    String.utf8EncodeChar c = [.ofNat c.toNat] := if_pos h

theorem encodeChar_two {c : Char} (h1 : ¬ c.toNat ≤ 0x7f) (h2 : c.toNat ≤ 0x7ff) :
    String.utf8EncodeChar c =
      [.ofNat (c.toNat / 64 % 0x20 + 0xc0), .ofNat (c.toNat % 0x40 + 0x80)] :=
  (if_neg h1).trans (if_pos h2)

theorem encodeChar_three {c : Char} (h1 : ¬ c.toNat ≤ 0x7f) (h2 : ¬ c.toNat ≤ 0x7ff)
    (h3 : c.toNat ≤ 0xffff) :
    String.utf8EncodeChar c =
      [.ofNat (c.toNat / 4096 % 0x10 + 0xe0), .ofNat (c.toNat / 64 % 0x40 + 0x80),
        .ofNat (c.toNat % 0x40 + 0x80)] :=
  (if_neg h1).trans ((if_neg h2).trans (if_pos h3))

theorem encodeChar_four {c : Char} (h1 : ¬ c.toNat ≤ 0x7f) (h2 : ¬ c.toNat ≤ 0x7ff)
    (h3 : ¬ c.toNat ≤ 0xffff) :
    String.utf8EncodeChar c =
      [.ofNat (c.toNat / 262144 % 0x08 + 0xf0), .ofNat (c.toNat / 4096 % 0x40 + 0x80),
        .ofNat (c.toNat / 64 % 0x40 + 0x80), .ofNat (c.toNat % 0x40 + 0x80)] :=
  (if_neg h1).trans ((if_neg h2).trans (if_neg h3))

theorem first_encodeChar (c : Char) (after : List UInt8) : ∃ a rest,
    String.utf8EncodeChar c = a :: rest ∧ first a (rest ++ after) = (some c, after) := by
  -- The cases are the lengths of the encoding; the bounds that the bytes are checked against on the
  -- way back leave out surrogates and what is past the last character.
  have hmax := toNat_char_lt c
  have hs := toNat_char_not_surrogate c
  have hc : Char.ofNat c.toNat = c := Char.ofNat_toNat c
  by_cases h1 : c.toNat ≤ 0x7f
  · refine ⟨_, _, encodeChar_one h1, ?_⟩
    have hlt : c.toNat < 256 := by omega
    have hascii : c.toNat < 0x80 := by omega
    rw [first_eq hlt, if_pos hascii, hc]
    rfl
  by_cases h2 : c.toNat ≤ 0x7ff
  · refine ⟨_, _, encodeChar_two h1 h2, ?_⟩
    exact (first_two (by omega) (by omega) after).trans (by rw [hc])
  by_cases h3 : c.toNat ≤ 0xffff
  · refine ⟨_, _, encodeChar_three h1 h2 h3, ?_⟩
    exact (first_three (by omega) (by omega) hs after).trans (by rw [hc])
  · refine ⟨_, _, encodeChar_four h1 h2 h3, ?_⟩
    exact (first_four (by omega) hmax after).trans (by rw [hc])

theorem encode_cons (c : Char) (cs : List Char) :
    encode (c :: cs) = String.utf8EncodeChar c ++ encode cs := rfl

theorem encode_append (cs ds : List Char) : encode (cs ++ ds) = encode cs ++ encode ds :=
  List.flatMap_append

theorem decodeEach_encode (cs : List Char) : decodeEach (encode cs) = cs.map some := by
  induction cs with
  | nil => simp [encode, decodeEach]
  | cons c cs ih =>
    obtain ⟨a, rest, hc, hfirst⟩ := first_encodeChar c (encode cs)
    rw [encode_cons, hc, List.cons_append, decodeEach, hfirst, ih, List.map_cons]

theorem decode_encode (cs : List Char) : decode (encode cs) = some cs := by
  rw [decode, decodeEach_encode]
  induction cs with
  | nil => rfl
  | cons c cs ih => simp [ih]

/-- All bytes of a character past ASCII are past it too. -/
theorem encodeChar_high {c : Char} (h : 0x80 ≤ c.toNat) :
    ∀ b ∈ String.utf8EncodeChar c, 0x80 ≤ b.toNat := by
  have hbyte {k : Nat} (hlo : 0x80 ≤ k) (hhi : k < 256) : 0x80 ≤ (UInt8.ofNat k).toNat := by
    rwa [toNat_ofNat_of_lt hhi]
  have h1 : ¬ c.toNat ≤ 0x7f := by omega
  intro b hb
  by_cases h2 : c.toNat ≤ 0x7ff
  · rw [encodeChar_two h1 h2] at hb
    simp only [List.mem_cons, List.not_mem_nil, or_false] at hb
    rcases hb with rfl | rfl <;> exact hbyte (by omega) (by omega)
  by_cases h3 : c.toNat ≤ 0xffff
  · rw [encodeChar_three h1 h2 h3] at hb
    simp only [List.mem_cons, List.not_mem_nil, or_false] at hb
    rcases hb with rfl | rfl | rfl <;> exact hbyte (by omega) (by omega)
  · rw [encodeChar_four h1 h2 h3] at hb
    simp only [List.mem_cons, List.not_mem_nil, or_false] at hb
    rcases hb with rfl | rfl | rfl | rfl <;> exact hbyte (by omega) (by omega)

end Colloquy.Utf8
