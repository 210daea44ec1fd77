import Colloquy.Calendar.Timestamp

namespace Colloquy

inductive Kind where
  | boolean | number | text | time | list | absent
deriving DecidableEq, Repr

def Kind.name : Kind → String
  | boolean => "boolean"
  | number => "number"
  | text => "text"
  | time => "time"
  | list => "list"
  | absent => "absent"

inductive Value where
  | boolean (b : Bool)
  | number (n : Int64)
  | text (t : String)
  | time (t : Instant)
  | list (items : List Value)
  | absent

namespace Value

mutual
def same : Value → Value → Bool
  | boolean a, boolean b => a == b
  | number a, number b => a == b
  | text a, text b => a == b
  | time a, time b => decide (a = b)
  | list as, list bs => sameAll as bs
  | absent, absent => true
  | _, _ => false
def sameAll : List Value → List Value → Bool
  | [], [] => true
  | a :: as, b :: bs => same a b && sameAll as bs
  | _, _ => false
end

mutual
theorem same_iff : ∀ a b : Value, same a b = true ↔ a = b
  | boolean _, b => by cases b <;> simp [same]
  | number _, b => by cases b <;> simp [same]
  | text _, b => by cases b <;> simp [same]
  | time _, b => by cases b <;> simp [same]
  | list as, b => by cases b <;> simp [same, sameAll_iff as]
  | absent, b => by cases b <;> simp [same]
theorem sameAll_iff : ∀ as bs : List Value, sameAll as bs = true ↔ as = bs
  | [], bs => by cases bs <;> simp [sameAll]
  | a :: as, bs => by cases bs <;> simp [sameAll, same_iff a, sameAll_iff as]
end

instance : DecidableEq Value := fun a b => decidable_of_iff _ (same_iff a b)

def kind : Value → Kind
  | boolean _ => .boolean
  | number _ => .number
  | text _ => .text
  | time _ => .time
  | list _ => .list
  | absent => .absent

mutual
def display : Value → List Char
  | boolean b => if b then ['t', 'r', 'u', 'e'] else ['f', 'a', 'l', 's', 'e']
  | number n => Decimal.ofInt n.toInt
  | text t => t.toList
  | time t => Timestamp.display t
  | list items => '[' :: displayItems items
  | absent => ['a', 'b', 's', 'e', 'n', 't']
def displayItems : List Value → List Char
  | [] => [']']
  | [item] => display item ++ [']']
  | item :: next :: items => display item ++ ',' :: ' ' :: displayItems (next :: items)
end

/-- The number of lists that enclose each other in a value. -/
def depth : Value → Nat
  | list items => depthItems items + 1
  | _ => 0
where
  depthItems : List Value → Nat
    | [] => 0
    | item :: items => max (depth item) (depthItems items)

end Value

end Colloquy
