import Colloquy.Proofs.Predicate.Laws
import Colloquy.Proofs.Store.WarmUp

/-!
Predicates in which neither a position nor a limit occurs. How many messages were accepted before
makes no difference to them.
-/

namespace Colloquy.Predicate

mutual
/-- Whether neither a position nor a limit occurs in a tree. -/
def isPlain : Predicate → Bool
  | position | limit _ => false
  | always | literal _ | now | number | attr _ => true
  | equal a b | keywords a b | greater a b | less a b | contains a b => isPlain a && isPlain b
  | and children | or children => allPlain children
  | not child => isPlain child
def allPlain : List Predicate → Bool
  | [] => true
  | child :: children => isPlain child && allPlain children
end

variable (message : UInt64) (k k' : UInt64) (now : Instant)

mutual
/-- The position of a message is not asked for, wherever it might be in the tree. -/
theorem evaluate_plain : ∀ p : Predicate, p.isPlain = true →
    evaluate ⟨message, k, now⟩ p = evaluate ⟨message, k', now⟩ p
  | position, h | limit _, h => by cases h
  | always, _ | literal _, _ | .now, _ | number, _ | attr _, _ => rfl
  | equal a b, h | keywords a b, h | greater a b, h | less a b, h | contains a b, h => by
    obtain ⟨ha, hb⟩ := Bool.and_eq_true_iff.1 h
    simp only [evaluate, evaluate_plain a ha, evaluate_plain b hb]
  | and children, h => by rw [evaluate, evaluate, allTrue_plain children h]
  | or children, h => by rw [evaluate, evaluate, anyTrue_plain children h]
  | not child, h => by rw [evaluate, evaluate, evaluate_plain child h]
theorem allTrue_plain : ∀ children : List Predicate, allPlain children = true →
    allTrue ⟨message, k, now⟩ children = allTrue ⟨message, k', now⟩ children
  | [], _ => rfl
  | child :: rest, h => by
    obtain ⟨hchild, hrest⟩ := Bool.and_eq_true_iff.1 h
    rw [allTrue, allTrue, evaluate_plain child hchild, allTrue_plain rest hrest]
theorem anyTrue_plain : ∀ children : List Predicate, allPlain children = true →
    anyTrue ⟨message, k, now⟩ children = anyTrue ⟨message, k', now⟩ children
  | [], _ => rfl
  | child :: rest, h => by
    obtain ⟨hchild, hrest⟩ := Bool.and_eq_true_iff.1 h
    rw [anyTrue, anyTrue, evaluate_plain child hchild, anyTrue_plain rest hrest]
end

theorem truth_plain {p : Predicate} (h : p.isPlain = true) :
    truth ⟨message, k, now⟩ p = truth ⟨message, k', now⟩ p := by
  rw [truth, truth, evaluate_plain message k k' now p h]

end Colloquy.Predicate
