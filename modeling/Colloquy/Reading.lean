import Colloquy.Value.Comparison

/-!
Computations that read attributes of messages. Who answers is not part of a reading: it can be run
against a store or a table of values, or be held until an answer comes.
-/

namespace Colloquy

inductive Reading (α : Type) where
  | done (outcome : Except TypeMismatch α)
  | read (message : UInt64) (name : String) (next : Value → Reading α)

namespace Reading
variable {α β : Type}

def ofExcept (outcome : Except TypeMismatch α) : Reading α := done outcome

def attr (message : UInt64) (name : String) : Reading Value :=
  read message name fun value => done (.ok value)

/-- A failure ends a reading; no attribute is asked for after it. -/
def bind : Reading α → (α → Reading β) → Reading β
  | done (.ok a), next => next a
  | done (.error cause), _ => done (.error cause)
  | read message name answer, next =>
    read message name fun value => bind (answer value) next

instance : Monad Reading where
  pure a := done (.ok a)
  bind := bind

inductive Follows : Reading α → Reading α → Prop where
  | next (message : UInt64) (name : String) (next : Value → Reading α) (value : Value) :
      Follows (next value) (read message name next)

theorem follows_wf : WellFounded (@Follows α) := by
  refine ⟨fun reading => ?_⟩
  induction reading with
  | done outcome =>
    refine .intro _ fun later h => ?_
    cases h
  | read message name next ih =>
    refine .intro _ fun later h => ?_
    cases h with
    | next _ _ _ value => exact ih value

end Reading

end Colloquy
