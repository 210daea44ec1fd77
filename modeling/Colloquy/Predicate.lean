import Colloquy.Text.Quoted
import Colloquy.Value

/-!
Predicates on messages, as trees, and their canonical text.
-/

namespace Colloquy

inductive Predicate where
  /-- Accepts every message; the meaning of the empty query. -/
  | always
  | literal (value : Value)
  /-- How many messages were accepted before this one. -/
  | position
  | now
  | number
  | attr (name : String)
  | equal (a b : Predicate)
  /-- Every keyword of the query occurs in the target. -/
  | keywords (query target : Predicate)
  | greater (a b : Predicate)
  | less (a b : Predicate)
  | contains (list item : Predicate)
  | and (children : List Predicate)
  | or (children : List Predicate)
  | not (child : Predicate)
  /-- Accepts while fewer than `n` messages were accepted. -/
  | limit (n : UInt64)

namespace Predicate

mutual
def same : Predicate → Predicate → Bool
  | always, always => true
  | literal v, literal w => decide (v = w)
  | position, position => true
  | now, now => true
  | number, number => true
  | attr m, attr n => m == n
  | equal a b, equal c d => same a c && same b d
  | keywords a b, keywords c d => same a c && same b d
  | greater a b, greater c d => same a c && same b d
  | less a b, less c d => same a c && same b d
  | contains a b, contains c d => same a c && same b d
  | and as, and bs => sameAll as bs
  | or as, or bs => sameAll as bs
  | not a, not b => same a b
  | limit m, limit n => m == n
  | _, _ => false
def sameAll : List Predicate → List Predicate → Bool
  | [], [] => true
  | a :: as, b :: bs => same a b && sameAll as bs
  | _, _ => false
end

mutual
theorem same_iff : ∀ p q : Predicate, same p q = true ↔ p = q
  | always, q => by cases q <;> simp [same]
  | literal _, q => by cases q <;> simp [same]
  | position, q => by cases q <;> simp [same]
  | now, q => by cases q <;> simp [same]
  | number, q => by cases q <;> simp [same]
  | attr _, q => by cases q <;> simp [same]
  | equal a b, q => by cases q <;> simp [same, same_iff a, same_iff b]
  | keywords a b, q => by cases q <;> simp [same, same_iff a, same_iff b]
  | greater a b, q => by cases q <;> simp [same, same_iff a, same_iff b]
  | less a b, q => by cases q <;> simp [same, same_iff a, same_iff b]
  | contains a b, q => by cases q <;> simp [same, same_iff a, same_iff b]
  | and as, q => by cases q <;> simp [same, sameAll_iff as]
  | or as, q => by cases q <;> simp [same, sameAll_iff as]
  | not a, q => by cases q <;> simp [same, same_iff a]
  | limit _, q => by cases q <;> simp [same]
theorem sameAll_iff : ∀ ps qs : List Predicate, sameAll ps qs = true ↔ ps = qs
  | [], qs => by cases qs <;> simp [sameAll]
  | p :: ps, qs => by cases qs <;> simp [sameAll, same_iff p, sameAll_iff ps]
end

instance : DecidableEq Predicate := fun p q => decidable_of_iff _ (same_iff p q)

/-- A form: its name and its arguments, each after a blank, in parentheses. -/
def form (name : String) (arguments : List Char) : List Char :=
  '(' :: name.toList ++ arguments ++ [')']

mutual
def render : Predicate → List Char
  | always => []
  | literal (.text t) => Text.quote t.toList
  | literal v => v.display
  | position => "$pos".toList
  | now => "$now".toList
  | number => "$number".toList
  | attr name => '$' :: name.toList
  | equal a b => form "equal" (' ' :: render a ++ ' ' :: render b)
  | keywords a b => form "matches" (' ' :: render a ++ ' ' :: render b)
  | greater a b => form "greater" (' ' :: render a ++ ' ' :: render b)
  | less a b => form "less" (' ' :: render a ++ ' ' :: render b)
  | contains a b => form "contains" (' ' :: render a ++ ' ' :: render b)
  | and children => form "and" (renderAll children)
  | or children => form "or" (renderAll children)
  | not child => form "not" (' ' :: render child)
  | limit n => form "limit" (' ' :: Decimal.ofNat n.toNat)
def renderAll : List Predicate → List Char
  | [] => []
  | child :: children => ' ' :: render child ++ renderAll children
end

def text (p : Predicate) : String := String.ofList p.render

mutual
def attributes : Predicate → List String
  | always | literal _ | position | now | number | limit _ => []
  | attr name => [name]
  | equal a b | keywords a b | greater a b | less a b | contains a b =>
    attributes a ++ attributes b
  | and children | or children => attributesOfAll children
  | not child => attributes child
def attributesOfAll : List Predicate → List String
  | [] => []
  | child :: children => attributes child ++ attributesOfAll children
end

end Predicate

end Colloquy
