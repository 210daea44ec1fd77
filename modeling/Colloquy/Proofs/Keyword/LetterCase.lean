import Colloquy.Proofs.Keyword
import Mathlib.Data.List.Forall2

/-!
A capital of ASCII and its small letter are lowered to the same letter, and a sigma that looks for
its form meets both as cased.
-/

namespace Colloquy.Keyword
open Colloquy.Text

/-- The second character is the first one, or an ASCII letter in the place of the same letter. -/
def Recased (c d : Char) : Prop := d = c ∨ c.isAlpha = true ∧ (d = c.toUpper ∨ d = c.toLower)

instance (c d : Char) : Decidable (Recased c d) :=
  inferInstanceAs (Decidable (d = c ∨ c.isAlpha = true ∧ (d = c.toUpper ∨ d = c.toLower)))

theorem letter_cases {c : Char} (h : c.isAlpha = true) :
    ∃ n : Fin 26, c = Char.ofNat (65 + n) ∨ c = Char.ofNat (97 + n) := by
  have hcode (first : Nat) (hle : first ≤ c.toNat) : c = Char.ofNat (first + (c.toNat - first)) := by
    rw [Nat.add_sub_cancel' hle, Char.ofNat_toNat]
  rcases Bool.or_eq_true_iff.1 h with hupper | hlower
  · obtain ⟨hge, hle⟩ := of_decide_eq_true hupper
    have hfirst : 65 ≤ c.toNat := UInt32.le_iff_toNat_le.1 hge
    have hlast : c.toNat ≤ 90 := UInt32.le_iff_toNat_le.1 hle
    exact ⟨⟨c.toNat - 65, by omega⟩, .inl (hcode 65 hfirst)⟩
  · obtain ⟨hge, hle⟩ := Bool.and_eq_true_iff.1 hlower
    have hfirst : 97 ≤ c.toNat := UInt32.le_iff_toNat_le.1 (of_decide_eq_true hge)
    have hlast : c.toNat ≤ 122 := UInt32.le_iff_toNat_le.1 (of_decide_eq_true hle)
    exact ⟨⟨c.toNat - 97, by omega⟩, .inr (hcode 97 hfirst)⟩

/-- What is the same for a capital and its small letter is kept when a character is recased. -/
theorem eq_of_recased {α : Type} {f : Char → α}
    (hf : ∀ n : Fin 26, f (Char.ofNat (65 + n)) = f (Char.ofNat (97 + n))) {c d : Char}
    (h : Recased c d) : f d = f c := by
  have hupper : ∀ n : Fin 26, (Char.ofNat (65 + n)).toUpper = Char.ofNat (65 + n) ∧
      (Char.ofNat (97 + n)).toUpper = Char.ofNat (65 + n) := by decide
  have hlower : ∀ n : Fin 26, (Char.ofNat (65 + n)).toLower = Char.ofNat (97 + n) ∧
      (Char.ofNat (97 + n)).toLower = Char.ofNat (97 + n) := by decide
  rcases h with rfl | ⟨hletter, hcase⟩
  · rfl
  obtain ⟨n, rfl | rfl⟩ := letter_cases hletter
  · rcases hcase with rfl | rfl
    · rw [(hupper n).1]
    · rw [(hlower n).1]
      exact (hf n).symm
  · rcases hcase with rfl | rfl
    · rw [(hupper n).2]
      exact hf n
    · rw [(hlower n).2]

section Recased
variable {text other : List Char}

theorem meetsCased_cons (c : Char) (rest : List Char) :
    meetsCased (c :: rest) = if isCaseIgnorable c then meetsCased rest else isCased c := by
  by_cases hc : isCaseIgnorable c
  · rw [if_pos hc, meetsCased, List.dropWhile_cons_of_pos hc, meetsCased]
  · rw [if_neg hc, meetsCased, List.dropWhile_cons_of_neg hc]

theorem meetsCased_recased (h : List.Forall₂ Recased text other) :
    meetsCased other = meetsCased text := by
  induction h with
  | nil => rfl
  | cons hc _ ih =>
    have hignorable := eq_of_recased (f := isCaseIgnorable) (by decide) hc
    have hcased := eq_of_recased (f := isCased) (by decide) hc
    rw [meetsCased_cons, meetsCased_cons, hignorable, hcased, ih]

theorem lowerSigma_recased {before beforeOther : List Char}
    (hbefore : List.Forall₂ Recased before beforeOther) (h : List.Forall₂ Recased text other) :
    lowerSigma beforeOther other = lowerSigma before text := by
  rw [lowerSigma, lowerSigma, meetsCased_recased hbefore, meetsCased_recased h]

/-- A sigma takes the same form, for the letters around it are met as cased in either case. -/
theorem lowerAfter_recased {before beforeOther : List Char}
    (hbefore : List.Forall₂ Recased before beforeOther) (h : List.Forall₂ Recased text other) :
    lowerAfter beforeOther other = lowerAfter before text := by
  induction h generalizing before beforeOther with
  | nil => rfl
  | cons hc hrest ih =>
    have hsigma := eq_of_recased (f := (· = 'Σ')) (by decide) hc
    have hlowered := eq_of_recased (f := lowerChar) (by decide) hc
    have hform := lowerSigma_recased hbefore hrest
    rw [lowerAfter, lowerAfter, ih (.cons hc hbefore)]
    simp only [hsigma, hlowered, hform]

theorem runsFrom_recased {run runOther : List Char} (hrun : List.Forall₂ Recased run runOther)
    (h : List.Forall₂ Recased text other) :
    List.Forall₂ (List.Forall₂ Recased) (runsFrom run text) (runsFrom runOther other) := by
  have hempty {cs ds : List Char} (hcs : List.Forall₂ Recased cs ds) :
      cs.isEmpty = ds.isEmpty := by
    cases hcs <;> rfl
  induction h generalizing run runOther with
  | nil =>
    rw [runsFrom, runsFrom, hempty hrun]
    split
    · exact .nil
    · exact .cons (List.forall₂_reverse_iff.2 hrun) .nil
  | cons hc hrest ih =>
    have hword := eq_of_recased (f := isLetterOrNumber) (by decide) hc
    rw [runsFrom, runsFrom, hword, hempty hrun]
    split
    · exact ih (.cons hc hrun)
    split
    · exact ih .nil
    · exact .cons (List.forall₂_reverse_iff.2 hrun) (ih .nil)

theorem ofText_recased (h : List.Forall₂ Recased text other) : ofText other = ofText text := by
  have hmap {as bs : List (List Char)} (has : List.Forall₂ (List.Forall₂ Recased) as bs) :
      bs.map lower = as.map lower := by
    induction has with
    | nil => rfl
    | cons ha _ ih =>
      rw [List.map_cons, List.map_cons, ih]
      exact congrArg (· :: _) (lowerAfter_recased .nil ha)
  exact hmap (runsFrom_recased .nil h)

end Recased

/-- ASCII letters may be written in either case: neither the keywords of a text nor what it matches
and is matched by depend on it. -/
theorem keywords_of_recased {query query' text text' : List Char}
    (hquery : List.Forall₂ Recased query query') (htext : List.Forall₂ Recased text text') :
    sorted text' = sorted text ∧ matchesText query' text' = matchesText query text := by
  have hwanted : ofText query' = ofText query := ofText_recased hquery
  have hfound : ofText text' = ofText text := ofText_recased htext
  constructor
  · rw [sorted, sorted, hfound]
  · rw [matchesText, matchesText, hwanted, hfound]

/-- The sigma before the letter stays one within a word, and the capital I keeps its dot. -/
theorem keywords_of_recased_sigma :
    List.Forall₂ Recased ['Σ', 'b'] ['Σ', 'B'] ∧
      List.Forall₂ Recased ['Ο', 'Σ', 'b', ' ', 'I', 'İ'] ['Ο', 'Σ', 'B', ' ', 'i', 'İ'] ∧
      sorted ['Ο', 'Σ', 'B', ' ', 'i', 'İ'] = sorted ['Ο', 'Σ', 'b', ' ', 'I', 'İ'] ∧
      "οσb" ∈ sorted ['Ο', 'Σ', 'B', ' ', 'i', 'İ'] ∧
      matchesText ['Σ', 'B'] ['Ο', 'Σ', 'B', ' ', 'i', 'İ'] = true := by
  have hquery : List.Forall₂ Recased ['Σ', 'b'] ['Σ', 'B'] := by decide
  have htext : List.Forall₂ Recased ['Ο', 'Σ', 'b', ' ', 'I', 'İ']
      ['Ο', 'Σ', 'B', ' ', 'i', 'İ'] := by decide
  obtain ⟨hsorted, hmatches⟩ := keywords_of_recased hquery htext
  refine ⟨hquery, htext, hsorted, ?_, ?_⟩
  · rw [hsorted]
    exact mem_sorted.2 (by decide)
  · exact hmatches.trans (by decide)

end Colloquy.Keyword
