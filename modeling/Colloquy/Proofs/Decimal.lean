import Colloquy.Decimal

/-!
Decimal spellings read back. The digits that are written for a number are digits, their value is
the number, and zeros in front of them change nothing.
-/

namespace Colloquy.Decimal

/-- A run is taken as a whole where what follows does not go on with it. -/
theorem span_run {α : Type} {p : α → Bool} {run rest : List α} (hrun : ∀ a ∈ run, p a = true)
    (hstop : ∀ a ∈ rest.head?, p a = false) :
    (run ++ rest).takeWhile p = run ∧ (run ++ rest).dropWhile p = rest := by
  rw [List.takeWhile_append_of_pos hrun, List.dropWhile_append_of_pos hrun]
  cases rest with
  | nil => simp
  | cons a rest => simp [hstop a rfl]

theorem isDigit_of_isDigit {c : Char} (h : c.isDigit = true) : isDigit c = true := by
  simp only [Char.isDigit, Bool.and_eq_true, decide_eq_true_eq] at h
  simp only [isDigit, Bool.and_eq_true, decide_eq_true_eq]
  exact ⟨h.1, h.2⟩

theorem isDigit_of_mem_ofNat {n : Nat} {c : Char} (h : c ∈ ofNat n) : isDigit c = true :=
  isDigit_of_isDigit (Nat.isDigit_of_mem_toDigits (by decide) (by decide) h)

theorem ofNat_ne_nil (n : Nat) : ofNat n ≠ [] := Nat.toDigits_ne_nil

theorem value_eq_ofDigitChars (digits : List Char) :
    value digits = Nat.ofDigitChars 10 digits 0 := rfl

theorem value_ofNat (n : Nat) : value (ofNat n) = n := by
  rw [value_eq_ofDigitChars]
  exact Nat.ofDigitChars_ten_toDigits

theorem value_padded (width n : Nat) : value (padded width n) = n := by
  rw [value_eq_ofDigitChars, padded, Nat.ofDigitChars_append, Nat.ofDigitChars_replicate_zero,
    Nat.mul_zero]
  exact Nat.ofDigitChars_ten_toDigits

/-- Only zero is written with a zero in front. -/
theorem head_ofNat {n : Nat} (hn : 0 < n) : (ofNat n).head? ≠ some '0' := by
  -- The first digit is that of `n / 10` as long as there is more than one.
  induction n using Nat.strongRecOn with
  | ind n ih =>
    by_cases hsmall : n < 10
    · have hdigits : ofNat n = [Nat.digitChar n] := Nat.toDigits_of_lt_base hsmall
      have hall : ∀ k < 10, 0 < k → some (Nat.digitChar k) ≠ some '0' := by decide
      rw [hdigits]
      exact hall n hsmall hn
    · have hdigits : ofNat n = ofNat (n / 10) ++ [Nat.digitChar (n % 10)] :=
        Nat.toDigits_of_base_le (by decide) (Nat.not_lt.1 hsmall)
      rw [hdigits, List.head?_append, List.head?_eq_some_head (ofNat_ne_nil _), Option.some_or,
        ← List.head?_eq_some_head]
      exact ih (n / 10) (by omega) (by omega)

theorem isDigit_of_mem_padded {width n : Nat} {c : Char} (h : c ∈ padded width n) :
    isDigit c = true := by
  rcases List.mem_append.1 h with hz | hd
  · rw [List.eq_of_mem_replicate hz]
    rfl
  · exact isDigit_of_mem_ofNat hd

/-- A number that fits in its width is written in exactly that many digits. -/
theorem length_padded {width n : Nat} (hw : 0 < width) (hn : n < Nat.pow 10 width) :
    (padded width n).length = width := by
  have hl : (ofNat n).length ≤ width :=
    (Nat.length_toDigits_le_iff (by decide) hw).2 hn
  rw [padded, List.length_append, List.length_replicate]
  omega

theorem length_padded_ge (width n : Nat) : width ≤ (padded width n).length := by
  rw [padded, List.length_append, List.length_replicate]
  omega

theorem readNat_of_digits {cs : List Char} (hne : cs ≠ []) (hd : ∀ c ∈ cs, isDigit c = true) :
    readNat cs = some (value cs) := by
  have hall : cs.all isDigit = true := List.all_eq_true.2 hd
  have hemp : cs.isEmpty = false := by simp [hne]
  simp [readNat, hall, hemp]

theorem readNat_ofNat (n : Nat) : readNat (ofNat n) = some n := by
  rw [readNat_of_digits (ofNat_ne_nil n) (fun _ => isDigit_of_mem_ofNat), value_ofNat]

/-- Digits carry no sign of their own. -/
theorem readInt_of_digits {cs : List Char} (hne : cs ≠ []) (hd : ∀ c ∈ cs, isDigit c = true) :
    readInt cs = some (value cs : Int) := by
  have hread := readNat_of_digits hne hd
  unfold readInt
  split
  · exact absurd (hd '-' List.mem_cons_self) (by decide)
  · exact absurd (hd '+' List.mem_cons_self) (by decide)
  · rw [hread]
    rfl

theorem ofInt_natCast (n : Nat) : ofInt (n : Int) = ofNat n := rfl

theorem readInt_ofNat (n : Nat) : readInt (ofNat n) = some (n : Int) := by
  rw [readInt_of_digits (ofNat_ne_nil n) (fun _ => isDigit_of_mem_ofNat), value_ofNat]

theorem readInt_ofInt (n : Int) : readInt (ofInt n) = some n := by
  cases n with
  | ofNat m => exact readInt_ofNat m
  | negSucc m =>
    change (readNat (ofNat (m + 1))).map (fun k => -(k : Int)) = some (Int.negSucc m)
    rw [readNat_ofNat]
    rfl

theorem toInt64?_toInt (n : Int64) : toInt64? n.toInt = some n := by
  have hlo := n.le_toInt
  have hhi := n.toInt_lt
  have hfit : minInt64 ≤ n.toInt ∧ n.toInt ≤ maxInt64 := by
    simp only [minInt64, maxInt64]
    omega
  rw [toInt64?, if_pos hfit, Int64.ofInt_toInt]

theorem readInt64_ofInt (n : Int64) : readInt64 (ofInt n.toInt) = some n := by
  rw [readInt64, readInt_ofInt]
  exact toInt64?_toInt n

theorem toUInt64?_toNat (n : UInt64) : toUInt64? (n.toNat : Int) = some n := by
  have hfit : (0 : Int) ≤ (n.toNat : Int) ∧ (n.toNat : Int) ≤ 18446744073709551615 := by
    have hlt := n.toNat_lt
    omega
  rw [toUInt64?, if_pos hfit, Int.toNat_natCast, UInt64.ofNat_toNat]

/-- A number of at most 63 bits is the same with a sign and without. -/
theorem toInt_toInt64 {n : UInt64} (h : n.toNat ≤ 9223372036854775807) :
    n.toInt64.toInt = (n.toNat : Int) := by
  have hsigned : n.toInt64 = Int64.ofNat n.toNat := by
    rw [← UInt64.toInt64_ofNat', UInt64.ofNat_toNat]
  rw [hsigned]
  exact Int64.toInt_ofNat_of_lt (by omega)

end Colloquy.Decimal
