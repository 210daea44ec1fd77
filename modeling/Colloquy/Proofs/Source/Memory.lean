import Colloquy.Proofs.Keyed
import Colloquy.Source.Memory

/-!
What a source in memory keeps true: the names of each bout ascend, and a message is found under its
own number.
-/

namespace Colloquy.Source
open Std

theorem compare_eq_lt {a b : String} : compare a b = .lt ↔ a < b := compareOfLessAndEq_eq_lt

theorem mem_insertName {name other : String} {names : List String} :
    other ∈ insertName name names ↔ other = name ∨ other ∈ names := by
  induction names with
  | nil => simp [insertName]
  | cons n rest ih =>
    rw [insertName]
    split
    · exact List.mem_cons
    · rename_i heq
      obtain rfl : name = n := LawfulEqCmp.eq_of_compare heq
      simp only [List.mem_cons, or_self_left]
    · rw [List.mem_cons, ih, List.mem_cons]
      exact or_left_comm

theorem insertName_ascends {names : List String} (h : names.Pairwise (· < ·)) (name : String) :
    (insertName name names).Pairwise (· < ·) := by
  induction names with
  | nil => exact List.pairwise_singleton _ _
  | cons n rest ih =>
    obtain ⟨hfirst, hrest⟩ := List.pairwise_cons.1 h
    rw [insertName]
    split
    · rename_i hlt
      have hlt : name < n := compare_eq_lt.1 hlt
      refine List.pairwise_cons.2 ⟨?_, h⟩
      intro other hother
      rcases List.mem_cons.1 hother with rfl | hother
      · exact hlt
      · exact String.lt_trans hlt (hfirst other hother)
    · exact h
    · rename_i hgt
      have hlt : n < name := compare_eq_lt.1 (OrientedCmp.gt_iff_lt.1 hgt)
      refine List.pairwise_cons.2 ⟨?_, ih hrest⟩
      intro other hother
      rcases mem_insertName.1 hother with rfl | hother
      · exact hlt
      · exact hfirst other hother

namespace Memory

theorem participantsOf_join (s : Memory) (bout : UInt64) (identity : String) (other : UInt64) :
    (s.join bout identity).participantsOf other =
      if other = bout then insertName identity (s.participantsOf bout)
      else s.participantsOf other := by
  unfold participantsOf join
  split
  · rename_i h
    rw [h, Keyed.find?_insert_self]
    rfl
  · rename_i h
    rw [Keyed.find?_insert_of_ne h]

/-- Messages stand in the order of their numbers, each under its own. -/
structure Ordered (s : Memory) : Prop where
  sorted : Keyed.Sorted s.posted
  numbered : ∀ e ∈ s.posted, e.2.number = e.1
  ascending : ∀ bout, (s.participantsOf bout).Pairwise (· < ·)

theorem ordered_empty : Ordered {} where
  sorted := List.Pairwise.nil
  numbered := by
    intro e he
    cases he
  ascending _ := List.Pairwise.nil

variable {s : Memory}

theorem ordered_post (h : Ordered s) (m : Message) : Ordered (s.post m) := by
  refine ⟨Keyed.sorted_insert h.sorted, ?_, h.ascending⟩
  intro e he
  rcases Keyed.mem_insert he with rfl | he
  · rfl
  · exact h.numbered e he

theorem ordered_join (h : Ordered s) (bout : UInt64) (identity : String) :
    Ordered (s.join bout identity) := by
  refine ⟨h.sorted, h.numbered, ?_⟩
  intro other
  rw [participantsOf_join]
  split
  · exact insertName_ascends (h.ascending bout) identity
  · exact h.ascending other

theorem mem_posted (h : Ordered s) (m : Message) :
    m ∈ s.posted.map Prod.snd ↔ Keyed.find? m.number s.posted = some m := by
  constructor
  · intro hm
    obtain ⟨e, he, rfl⟩ := List.mem_map.1 hm
    have hnumber := h.numbered e he
    rw [hnumber]
    exact Keyed.find?_of_mem h.sorted he
  · intro hfind
    exact List.mem_map.2 ⟨_, Keyed.mem_of_find? hfind, rfl⟩

theorem distinct_posted (h : Ordered s) : (s.posted.map Prod.snd).Pairwise
    fun a b => a.number ≠ b.number := by
  refine List.pairwise_map.2 (h.sorted.imp_of_mem ?_)
  intro a b ha hb hlt heq
  rw [h.numbered a ha, h.numbered b hb] at heq
  rw [heq, compare_self] at hlt
  cases hlt

end Memory

end Colloquy.Source
