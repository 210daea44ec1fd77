import Colloquy.Predicate.Evaluation
import Colloquy.Proofs.Store.WarmUp

/-!
The attributes that a predicate names are all that its evaluation asks for.
-/

namespace Colloquy

theorem Reading.asks_bind {α β : Type} {asked : UInt64 → String → Prop} {reading : Reading α}
    {next : α → Reading β} (hasks : reading.Asks asked) (hnext : ∀ a, (next a).Asks asked) :
    (reading >>= next).Asks asked := by
  induction reading with
  | done result =>
    cases result with
    | error cause => trivial
    | ok a => exact hnext a
  | read message name answer ih => exact ⟨hasks.1, fun value => ih value (hasks.2 value)⟩

namespace Predicate

variable {asked : UInt64 → String → Prop}

theorem asks_relate (relation : Value → Value → Except TypeMismatch Bool) {a b : Reading Value}
    (ha : a.Asks asked) (hb : b.Asks asked) :
    (do relate relation (← a) (← b) : Reading Value).Asks asked := by
  refine Reading.asks_bind ha fun x => Reading.asks_bind hb fun y => ?_
  trivial

mutual
theorem asks_evaluate (scene : Scene) : ∀ p : Predicate,
    (∀ name ∈ p.attributes, asked scene.message name) → (evaluate scene p).Asks asked
  | always, _ | literal _, _ | position, _ | now, _ | number, _ | limit _, _ => trivial
  | attr name, h => ⟨h name (List.mem_singleton_self name), fun _ => trivial⟩
  | equal a b, h | keywords a b, h | greater a b, h | less a b, h | contains a b, h =>
    asks_relate _ (asks_evaluate scene a fun name hn => h name (List.mem_append_left _ hn))
      (asks_evaluate scene b fun name hn => h name (List.mem_append_right _ hn))
  | and children, h => Reading.asks_bind (asks_allTrue scene children h) fun _ => trivial
  | or children, h => Reading.asks_bind (asks_anyTrue scene children h) fun _ => trivial
  | not child, h => by
    refine Reading.asks_bind (asks_evaluate scene child h) fun value => ?_
    exact Reading.asks_bind trivial fun _ => trivial
theorem asks_allTrue (scene : Scene) : ∀ children : List Predicate,
    (∀ name ∈ attributesOfAll children, asked scene.message name) →
    (allTrue scene children).Asks asked
  | [], _ => trivial
  | child :: rest, h => by
    have hchild := asks_evaluate scene child fun name hn => h name (List.mem_append_left _ hn)
    have hrest := asks_allTrue scene rest fun name hn => h name (List.mem_append_right _ hn)
    refine Reading.asks_bind hchild fun value => Reading.asks_bind trivial fun b => ?_
    cases b with
    | true => exact hrest
    | false => trivial
theorem asks_anyTrue (scene : Scene) : ∀ children : List Predicate,
    (∀ name ∈ attributesOfAll children, asked scene.message name) →
    (anyTrue scene children).Asks asked
  | [], _ => trivial
  | child :: rest, h => by
    have hchild := asks_evaluate scene child fun name hn => h name (List.mem_append_left _ hn)
    have hrest := asks_anyTrue scene rest fun name hn => h name (List.mem_append_right _ hn)
    refine Reading.asks_bind hchild fun value => Reading.asks_bind trivial fun b => ?_
    cases b with
    | true => trivial
    | false => exact hrest
end

theorem asks_truth (scene : Scene) {p : Predicate}
    (h : ∀ name ∈ p.attributes, asked scene.message name) : (truth scene p).Asks asked :=
  Reading.asks_bind (asks_evaluate scene p h) fun _ => trivial

end Predicate

end Colloquy
