import Colloquy.Predicate.Evaluation
import Colloquy.Proofs.Calendar.Order
import Colloquy.Proofs.Decimal
import Colloquy.Proofs.Outcome

/-!
The order turns round with its sides, and equality says the same as the order, except where a text
spells a number in another way than it is written.
-/

namespace Colloquy
open Std

/-- The same mismatch with the sides changed over. -/
def TypeMismatch.swap : TypeMismatch → TypeMismatch
  | equalityUndefined a b => equalityUndefined b a
  | orderingUndefined a b => orderingUndefined b a
  | other => other

theorem isEq_compare (a b : Int) : (compare a b).isEq = decide (a = b) := by
  rw [Bool.eq_iff_iff, Ordering.isEq_iff_eq_eq, Int.compare_eq_eq, decide_eq_true_iff]

theorem Instant.isEq_compare (a b : Instant) : (a.compare b).isEq = decide (a = b) := by
  rw [Bool.eq_iff_iff, Ordering.isEq_iff_eq_eq, decide_eq_true_iff]
  exact LawfulEqCmp.compare_eq_iff_eq

namespace Value

/-- What comparing the other way round gives. -/
def turned (outcome : Except TypeMismatch (Option Ordering)) :
    Except TypeMismatch (Option Ordering) :=
  (outcome.map (Option.map Ordering.swap)).mapError TypeMismatch.swap

theorem turned_compare (a b : Int) :
    turned (.ok (some (compare a b))) = .ok (some (compare b a)) :=
  congrArg (fun o => Except.ok (some o)) (Int.compare_swap a b)

theorem turned_times (a b : Instant) :
    turned (.ok (some (a.compare b))) = .ok (some (b.compare a)) :=
  congrArg (fun o => Except.ok (some o)) OrientedCmp.eq_swap.symm

theorem readNumber_eq_error {t : String} {cause : TypeMismatch}
    (h : readNumber t = .error cause) : cause = .notANumber t := by
  unfold readNumber at h
  split at h
  · cases h
  · exact (Except.error.inj h).symm

theorem readTime_eq_error {t : String} {cause : TypeMismatch} (h : readTime t = .error cause) :
    cause = .notATime t := by
  unfold readTime at h
  split at h
  · cases h
  · exact (Except.error.inj h).symm

/-- A reading that is compared on either side fails in one way. -/
theorem turned_map {α : Type} {reading : Except TypeMismatch α} {left right : α → Ordering}
    (hcause : ∀ cause, reading = .error cause → cause.swap = cause)
    (hvalue : ∀ x, (right x).swap = left x) :
    turned (reading.map fun x => some (right x)) = reading.map fun x => some (left x) := by
  cases reading with
  | error cause => exact congrArg Except.error (hcause cause rfl)
  | ok x => exact congrArg (fun o => Except.ok (some o)) (hvalue x)

theorem looseCmp_swap (a b : Value) : looseCmp b a = turned (looseCmp a b) := by
  cases a <;> cases b
  case number.number m n => exact (turned_compare m.toInt n.toInt).symm
  case number.time n t => exact (turned_compare n.toInt t.millis).symm
  case time.number t n => exact (turned_compare t.millis n.toInt).symm
  case time.time t u => exact (turned_times t u).symm
  -- what cannot be read is told without the other side
  case number.text n t =>
    have hcause (cause) (h : readNumber t = .error cause) : cause.swap = cause :=
      readNumber_eq_error h ▸ rfl
    exact (turned_map hcause fun m => Int.compare_swap n.toInt m).symm
  case text.number t n =>
    have hcause (cause) (h : readNumber t = .error cause) : cause.swap = cause :=
      readNumber_eq_error h ▸ rfl
    exact (turned_map hcause fun m => Int.compare_swap m n.toInt).symm
  case time.text u t =>
    have hcause (cause) (h : readTime t = .error cause) : cause.swap = cause :=
      readTime_eq_error h ▸ rfl
    exact (turned_map hcause fun v => OrientedCmp.eq_swap.symm).symm
  case text.time t u =>
    have hcause (cause) (h : readTime t = .error cause) : cause.swap = cause :=
      readTime_eq_error h ▸ rfl
    exact (turned_map hcause fun v => OrientedCmp.eq_swap.symm).symm
  -- a side is absent, or the kinds have no order
  all_goals rfl

theorem turned_eq_error {outcome : Except TypeMismatch (Option Ordering)} :
    (∃ cause, turned outcome = .error cause) ↔ ∃ cause, outcome = .error cause := by
  cases outcome with
  | error cause => exact ⟨fun _ => ⟨cause, rfl⟩, fun _ => ⟨cause.swap, rfl⟩⟩
  | ok order => constructor <;> rintro ⟨_, ⟨⟩⟩

theorem turned_eq_ok {outcome : Except TypeMismatch (Option Ordering)} (order : Option Ordering) :
    turned outcome = .ok (order.map Ordering.swap) ↔ outcome = .ok order := by
  have hinj : Function.Injective (Option.map Ordering.swap) := by
    intro o o' h
    have hback : ∀ p : Option Ordering, (p.map Ordering.swap).map Ordering.swap = p := by
      rintro (_ | _ | _ | _) <;> rfl
    rw [← hback o, h, hback]
  cases outcome with
  | error cause => constructor <;> rintro ⟨⟩
  | ok o =>
    constructor
    · intro h
      exact congrArg Except.ok (hinj (Except.ok.inj h))
    · rintro ⟨⟩
      rfl

/-- A number and a text that spells it, but not as the number is written. -/
def SpeltOtherwise : Value → Value → Prop
  | number n, text t | text t, number n =>
    Decimal.readInt64 (Text.trim t.toList) = some n ∧
      Text.trim t.toList ≠ Decimal.ofInt n.toInt
  | _, _ => False

theorem readNumber_eq_ok {t : String} {m : Int} (h : readNumber t = .ok m) :
    ∃ n : Int64, Decimal.readInt64 (Text.trim t.toList) = some n ∧ n.toInt = m := by
  unfold readNumber at h
  split at h
  · exact ⟨_, ‹_›, Except.ok.inj h⟩
  · cases h

theorem readTime_eq_ok {t : String} {instant : Instant} (h : readTime t = .ok instant) :
    Timestamp.read t.toList = some instant := by
  unfold readTime at h
  split at h
  · exact Except.ok.inj h ▸ ‹_›
  · cases h

/-- A text that reads as a number spells what is written like it, and no other number. -/
theorem spellsNumber_of_read {n : Int64} {t : String} {m : Int} (hread : readNumber t = .ok m)
    (hwritten : ¬ SpeltOtherwise (number n) (text t)) :
    spellsNumber n t = decide (n.toInt = m) := by
  obtain ⟨k, hk, rfl⟩ := readNumber_eq_ok hread
  rw [Bool.eq_iff_iff, spellsNumber, beq_iff_eq, decide_eq_true_iff]
  constructor
  · intro hspelt
    rw [← hspelt, Decimal.readInt64_ofInt] at hk
    rw [Option.some.inj hk]
  · intro hsame
    obtain rfl : n = k := Int64.toInt_inj.1 hsame
    exact Decidable.byContradiction fun hother => hwritten ⟨hk, Ne.symm hother⟩

theorem spellsTime_of_read {u v : Instant} {t : String} (hread : readTime t = .ok v) :
    spellsTime u t = decide (v = u) := by
  rw [spellsTime, readTime_eq_ok hread]

/-- Where values have an order they are equal or not, and equal where the order says so. -/
theorem looseEq_of_looseCmp {a b : Value} {o : Ordering} (h : looseCmp a b = .ok (some o))
    (hwritten : ¬ SpeltOtherwise a b) : looseEq a b = .ok o.isEq := by
  cases a <;> cases b
  case number.number m n =>
    cases h
    rw [looseEq, isEq_compare, Bool.beq_eq_decide_eq, decide_eq_decide.2 Int64.toInt_inj]
  case time.time t u =>
    cases h
    rw [looseEq, Instant.isEq_compare]
  case time.number t n =>
    cases h
    rw [looseEq, isMillis, isEq_compare, Bool.beq_eq_decide_eq]
  case number.time n t =>
    cases h
    rw [looseEq, isMillis, isEq_compare, Bool.beq_eq_decide_eq, decide_eq_decide.2 eq_comm]
  case number.text n t =>
    obtain ⟨m, hread, horder⟩ := Except.map_eq_ok.1 h
    cases horder
    rw [looseEq, spellsNumber_of_read hread hwritten, isEq_compare]
  case text.number t n =>
    obtain ⟨m, hread, horder⟩ := Except.map_eq_ok.1 h
    cases horder
    rw [looseEq, spellsNumber_of_read hread hwritten, isEq_compare, decide_eq_decide.2 eq_comm]
  case time.text u t =>
    obtain ⟨v, hread, horder⟩ := Except.map_eq_ok.1 h
    cases horder
    rw [looseEq, spellsTime_of_read hread, Instant.isEq_compare, decide_eq_decide.2 eq_comm]
  case text.time t u =>
    obtain ⟨v, hread, horder⟩ := Except.map_eq_ok.1 h
    cases horder
    rw [looseEq, spellsTime_of_read hread, Instant.isEq_compare]
  all_goals cases h

/-- A text that spells a number in another way stands where the number does and does not equal
it. -/
theorem comparisons_of_speltOtherwise {a b : Value} (h : SpeltOtherwise a b) :
    looseCmp a b = .ok (some .eq) ∧ looseEq a b = .ok false := by
  have hread {n : Int64} {t : String} (h : SpeltOtherwise (number n) (text t)) :
      readNumber t = .ok n.toInt ∧ spellsNumber n t = false := by
    rw [readNumber, h.1, spellsNumber, beq_eq_false_iff_ne]
    exact ⟨rfl, Ne.symm h.2⟩
  have hself (n : Int) : compare n n = .eq := ReflCmp.compare_self
  cases a <;> cases b
  case number.text n t =>
    obtain ⟨hnumber, hspells⟩ := hread h
    rw [looseCmp, looseEq, hnumber, hspells]
    exact ⟨congrArg (fun o => Except.ok (some o)) (hself n.toInt), rfl⟩
  case text.number t n =>
    obtain ⟨hnumber, hspells⟩ := hread h
    rw [looseCmp, looseEq, hnumber, hspells]
    exact ⟨congrArg (fun o => Except.ok (some o)) (hself n.toInt), rfl⟩
  all_goals exact h.elim

theorem looseCmp_of_compareValues {a b : Value} {wanted : Ordering}
    (h : Predicate.compareValues wanted a b = .ok true) : looseCmp a b = .ok (some wanted) := by
  obtain ⟨order, horder, hwanted⟩ := Except.map_eq_ok.1 h
  rw [horder, beq_iff_eq.1 hwanted]

/-- What is equal stands on neither side. -/
theorem not_compareValues_of_looseEq {a b : Value} {wanted : Ordering} (h : looseEq a b = .ok true)
    (hwanted : wanted ≠ .eq) : Predicate.compareValues wanted a b ≠ .ok true := by
  intro hordered
  have horder := looseCmp_of_compareValues hordered
  by_cases hspelt : SpeltOtherwise a b
  · rw [(comparisons_of_speltOtherwise hspelt).2] at h
    cases h
  · rw [looseEq_of_looseCmp horder hspelt] at h
    exact hwanted (Ordering.isEq_iff_eq_eq.1 (Except.ok.inj h))

/-- The loose order fails, is missing or turns round as its sides are changed over. Where there is
an order, loose equality is whether it is that of equals; only a number and a text that spells it in
another way than it is written come out as equals in the order and as not equal. So nothing is equal
and greater, or equal and less. -/
theorem looseCmp_turns_and_tells_looseEq (a b : Value) :
    ((∃ cause, looseCmp b a = .error cause) ↔ ∃ cause, looseCmp a b = .error cause) ∧
      (looseCmp b a = .ok none ↔ looseCmp a b = .ok none) ∧
      (∀ o : Ordering, looseCmp b a = .ok (some o.swap) ↔ looseCmp a b = .ok (some o)) ∧
      (∀ o, looseCmp a b = .ok (some o) → ¬ SpeltOtherwise a b → looseEq a b = .ok o.isEq) ∧
      (SpeltOtherwise a b → looseCmp a b = .ok (some .eq) ∧ looseEq a b = .ok false) ∧
      (looseEq a b = .ok true →
        Predicate.compareValues .gt a b ≠ .ok true ∧ Predicate.compareValues .lt a b ≠ .ok true) := by
  rw [looseCmp_swap a b]
  refine ⟨turned_eq_error, ?_, fun o => ?_, fun o => ?_, comparisons_of_speltOtherwise, fun h => ?_⟩
  · exact turned_eq_ok none
  · exact turned_eq_ok (some o)
  · exact looseEq_of_looseCmp
  · exact ⟨not_compareValues_of_looseEq h (by decide), not_compareValues_of_looseEq h (by decide)⟩

theorem looseCmp_turns_and_tells_looseEq_zeros :
    SpeltOtherwise (number 7) (text " 007") ∧
      looseCmp (number 7) (text " 007") = .ok (some .eq) ∧
      looseEq (number 7) (text " 007") = .ok false := by
  have hspelt : SpeltOtherwise (number 7) (text " 007") := ⟨by decide, by decide⟩
  have hseven := looseCmp_turns_and_tells_looseEq (number 7) (text " 007")
  exact ⟨hspelt, hseven.2.2.2.2.1 hspelt⟩

end Value

end Colloquy
