import Colloquy.Message
import Colloquy.Proofs.Calendar.Order
import Mathlib.Data.List.Sort

/-!
The order of messages. Messages of different numbers never stand in one place, so a list of them has
one arrangement from the newest to the oldest.
-/

namespace Colloquy
open Std

namespace Message

/-- Earlier messages first; of two of one instant, that with the lower number. -/
def compare (a b : Message) : Ordering :=
  (a.date.compare b.date).then (Ord.compare a.number b.number)

instance : TransCmp compare :=
  have : TransCmp fun a b : Message => a.date.compare b.date := transCmp_of_map Message.date
  inferInstanceAs (TransCmp (compareLex
    (fun a b : Message => a.date.compare b.date) (compareOn Message.number)))

theorem number_eq_of_compare {a b : Message} (h : compare a b = .eq) : a.number = b.number := by
  have hnumber : Ord.compare a.number b.number = .eq := (Ordering.then_eq_eq.1 h).2
  exact LawfulEqCmp.eq_of_compare hnumber

/-- No two messages of the list have one number. -/
def Distinct (messages : List Message) : Prop :=
  messages.Pairwise fun a b => a.number ≠ b.number

variable {messages others : List Message}

theorem eq_of_number_eq (h : Distinct messages) {a b : Message} (ha : a ∈ messages)
    (hb : b ∈ messages) (hnumber : a.number = b.number) : a = b := by
  have hnumbers : (messages.map number).Nodup := List.pairwise_map.2 h
  exact List.inj_on_of_nodup_map hnumbers ha hb hnumber

/-- The arrangement from the newest to the oldest, in which no two messages tie. -/
theorem sortNewestFirst_descends (h : Distinct messages) :
    (sortNewestFirst messages).Pairwise fun a b => compare b a = .lt := by
  have hperm : (sortNewestFirst messages).Perm messages := List.mergeSort_perm _ _
  have hdistinct : Distinct (sortNewestFirst messages) :=
    (hperm.pairwise_iff fun hne => Ne.symm hne).2 h
  have htrans (a b c : Message) (hab : newestFirst a b = true) (hbc : newestFirst b c = true) :
      newestFirst a c = true := by
    have hab : (compare b a).isLE = true := hab
    have hbc : (compare c b).isLE = true := hbc
    have hac : (compare c a).isLE = true := TransCmp.isLE_trans hbc hab
    exact hac
  have htotal (a b : Message) : (newestFirst a b || newestFirst b a) = true := by
    have hswap : compare b a = (compare a b).swap := OrientedCmp.eq_swap
    change ((compare b a).isLE || (compare a b).isLE) = true
    rw [hswap]
    cases compare a b <;> rfl
  have hsorted := List.pairwise_mergeSort htrans htotal messages
  refine (hsorted.and hdistinct).imp ?_
  intro a b hab
  obtain ⟨hle, hne⟩ := hab
  have hle : (compare b a).isLE = true := hle
  cases hcompare : compare b a with
  | lt => rfl
  | eq => exact absurd (number_eq_of_compare hcompare).symm hne
  | gt =>
    rw [hcompare] at hle
    cases hle

/-- A list from the newest message to the oldest is told by which messages it has. -/
theorem eq_of_descends (h : messages.Pairwise fun a b => compare b a = .lt)
    (hothers : others.Pairwise fun a b => compare b a = .lt)
    (hmem : ∀ m, m ∈ messages ↔ m ∈ others) : messages = others := by
  have hirrefl : Irrefl fun a b : Message => compare b a = .lt := by
    refine ⟨fun a ha => ?_⟩
    have hself : compare a a = .eq := ReflCmp.compare_self
    rw [hself] at ha
    cases ha
  have hantisymm : Antisymm fun a b : Message => compare b a = .lt := by
    refine ⟨fun a b hab hba => ?_⟩
    have hswap : compare b a = (compare a b).swap := OrientedCmp.eq_swap
    rw [hab, hba] at hswap
    cases hswap
  exact h.eq_of_mem_iff hothers hmem

end Message

end Colloquy
