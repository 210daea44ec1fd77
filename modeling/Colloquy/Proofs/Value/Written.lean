import Colloquy.Proofs.Calendar.Timestamp
import Colloquy.Proofs.Value.Equality

/-!
Values as they are written: a time with nanoseconds past a whole second becomes the instant they
lead to, unless it is a leap second at the end of a minute.
-/

namespace Colloquy.Value

/-- All times in the value are read back as they are written. -/
def Regular (v : Value) : Prop := ∀ t, OccursIn (time t) v → t.Regular

mutual
/-- The value that is written for another. -/
def asWritten : Value → Value
  | time t => time t.asWritten
  | list items => list (asWrittenItems items)
  | boolean b => boolean b
  | number n => number n
  | text t => text t
  | absent => absent
def asWrittenItems : List Value → List Value
  | [] => []
  | item :: items => asWritten item :: asWrittenItems items
end

theorem regular_time {t : Instant} : (time t).Regular ↔ t.Regular := by
  constructor
  · intro h
    exact h t .whole
  · intro h s hs
    cases hs
    exact h

theorem regular_list {items : List Value} : (list items).Regular ↔ ∀ v ∈ items, v.Regular := by
  constructor
  · intro h v hv t ht
    exact h t (.item hv ht)
  · intro h t ht
    cases ht with
    | item hmem ht => exact h _ hmem t ht

theorem regular_of_kind {v : Value} (htime : v.kind ≠ .time) (hlist : v.kind ≠ .list) :
    v.Regular := by
  intro t ht
  cases ht with
  | whole => exact absurd rfl htime
  | item hmem ht => exact absurd rfl hlist

theorem regular_boolean (b : Bool) : (boolean b).Regular := regular_of_kind nofun nofun

theorem regular_number (n : Int64) : (number n).Regular := regular_of_kind nofun nofun

theorem regular_text (t : String) : (text t).Regular := regular_of_kind nofun nofun

theorem regular_absent : absent.Regular := regular_of_kind nofun nofun

mutual
theorem asWritten_eq_self : ∀ v : Value, v.asWritten = v ↔ v.Regular
  | time t => by
    rw [asWritten, regular_time, time.injEq]
    exact Instant.asWritten_eq_self
  | list items => by
    rw [asWritten, regular_list, list.injEq]
    exact asWrittenItems_eq_self items
  | boolean b => iff_of_true rfl (regular_boolean b)
  | number n => iff_of_true rfl (regular_number n)
  | text t => iff_of_true rfl (regular_text t)
  | absent => iff_of_true rfl regular_absent
theorem asWrittenItems_eq_self : ∀ items : List Value,
    asWrittenItems items = items ↔ ∀ v ∈ items, v.Regular
  | [] => by simp [asWrittenItems]
  | v :: items => by
    rw [asWrittenItems, List.cons.injEq, List.forall_mem_cons]
    exact and_congr (asWritten_eq_self v) (asWrittenItems_eq_self items)
end

instance (v : Value) : Decidable v.Regular := decidable_of_iff _ (asWritten_eq_self v)

mutual
theorem regular_asWritten : ∀ v : Value, v.asWritten.Regular
  | time t => regular_time.2 t.regular_asWritten
  | list items => regular_list.2 (regular_asWrittenItems items)
  | boolean b => regular_boolean b
  | number n => regular_number n
  | text t => regular_text t
  | absent => regular_absent
theorem regular_asWrittenItems : ∀ items : List Value, ∀ v ∈ asWrittenItems items, v.Regular
  | [], _, hv => by cases hv
  | item :: items, v, hv => by
    rcases List.mem_cons.1 hv with rfl | hv
    · exact regular_asWritten item
    · exact regular_asWrittenItems items v hv
end

end Colloquy.Value
