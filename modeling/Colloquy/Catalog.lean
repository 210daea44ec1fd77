import Colloquy.Predicate

namespace Colloquy

inductive Arity where
  | exactly (n : Nat)
  | atLeast (n : Nat)
deriving DecidableEq

namespace Arity

def admits : Arity → Nat → Bool
  | exactly n, count => count = n
  | atLeast n, count => n ≤ count

/-- Whether a form that holds `count` arguments may take another. -/
def hasRoom : Arity → Nat → Bool
  | exactly n, count => count < n
  | atLeast _, _ => true

def text : Arity → String
  | exactly n => s!"exactly {n} argument{plural n}"
  | atLeast n => s!"at least {n} argument{plural n}"
where
  plural (n : Nat) : String := if n = 1 then "" else "s"

end Arity

inductive ArgumentKind where
  | predicate
  | literal
deriving DecidableEq

inductive Form where
  | equal | keywords | greater | less | contains | and | or | not | limit
deriving DecidableEq

namespace Form

def all : List Form := [equal, keywords, greater, less, contains, and, or, not, limit]

def name : Form → String
  | equal => "equal"
  | keywords => "matches"
  | greater => "greater"
  | less => "less"
  | contains => "contains"
  | and => "and"
  | or => "or"
  | not => "not"
  | limit => "limit"

def ofName? (name : String) : Option Form := all.find? fun f => f.name == name

def arity : Form → Arity
  | equal | keywords | greater | less | contains => .exactly 2
  | and | or => .atLeast 1
  | not | limit => .exactly 1

def argumentKind : Form → ArgumentKind
  | limit => .literal
  | _ => .predicate

inductive Misuse where
  | wrongCount (form : Form) (count : Nat)
  | negativeLimit (n : Int64)
  | limitNotNumeric
deriving DecidableEq

def Misuse.message : Misuse → String
  | wrongCount form count => s!"'{form.name}' takes {form.arity.text}, got {count}"
  | negativeLimit n => s!"'limit' needs a non-negative number, got {n.toInt}"
  | limitNotNumeric => "'limit' needs a numeric literal"

def construct (form : Form) (arguments : List Predicate) : Except Misuse Predicate :=
  match form, arguments with
  | equal, [a, b] => .ok (.equal a b)
  | keywords, [a, b] => .ok (.keywords a b)
  | greater, [a, b] => .ok (.greater a b)
  | less, [a, b] => .ok (.less a b)
  | contains, [a, b] => .ok (.contains a b)
  | and, child :: rest => .ok (.and (child :: rest))
  | or, child :: rest => .ok (.or (child :: rest))
  | not, [child] => .ok (.not child)
  | limit, [.literal (.number n)] =>
    if n < 0 then .error (.negativeLimit n) else .ok (.limit n.toUInt64)
  | limit, [_] => .error .limitNotNumeric
  | form, arguments => .error (.wrongCount form arguments.length)

end Form

end Colloquy
