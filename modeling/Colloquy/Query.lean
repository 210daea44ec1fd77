import Colloquy.Catalog
import Colloquy.Query.Expression
import Colloquy.Text.Location

/-!
The shape of a query is read first; then each form is built from its arguments, from left to right.
-/

namespace Colloquy.Query

inductive Complaint where
  | expected (what : Expected)
  | unknownForm (name : String)
  | tooManyArguments (form : Form)
  | needsLiteral (form : Form) (source : String)
  | numberTooLarge (text : String)
  | numberTooSmall (text : String)
  | misuse (cause : Form.Misuse)
deriving DecidableEq

def Complaint.message : Complaint → String
  | expected .expression => "expected expression"
  | expected .name => "expected name"
  | expected .argument => "expected expression, variable, number, text, or word"
  | expected .finish => "expected EOI"
  | unknownForm name =>
    let known := ", ".intercalate (Form.all.map Form.name)
    s!"Unknown predicate '{name}', expected one of: {known}"
  | tooManyArguments form => s!"'{form.name}' takes {form.arity.text}, got more"
  | needsLiteral form source => s!"'{form.name}' expects a literal here, got '{source}'"
  | numberTooLarge text => s!"bad number '{text}': number too large to fit in target type"
  | numberTooSmall text => s!"bad number '{text}': number too small to fit in target type"
  | misuse cause => cause.message

structure Problem where
  offset : Nat
  complaint : Complaint

structure Failure where
  location : Text.Location
  complaint : Complaint
deriving DecidableEq

/-- The predicate of a variable. Three names are reserved; any other is an attribute. -/
def variablePredicate (name : List Char) : Predicate :=
  if name = "pos".toList then .position
  else if name = "now".toList then .now
  else if name = "number".toList then .number
  else .attr (String.ofList name)

/-- The predicate of a number, which has to fit in 64 bits. -/
def numberPredicate (start : Nat) (text : List Char) : Except Problem Predicate :=
  match Decimal.readInt64 text with
  | some n => .ok (.literal (.number n))
  | none =>
    let text' := String.ofList text
    .error ⟨start, if text.head? = some '-' then .numberTooSmall text' else .numberTooLarge text'⟩

/-- The characters of the query that an expression was read from, where it is not a literal. -/
def Expression.source? (cs : List Char) : Expression → Option (List Char)
  | form start stop _ _ _ => some ((cs.drop start).take (stop - start))
  | reference _ name => some ('$' :: name)
  | number _ _ => none
  | text _ _ => none

/-- The problem with an argument at its place in a form, whatever the argument holds. -/
def misplaced? (cs : List Char) (form : Form) (count : Nat) (e : Expression) : Option Complaint :=
  if form.arity.hasRoom count then
    match form.argumentKind, e.source? cs with
    | .literal, some source => some (.needsLiteral form (String.ofList source))
    | _, _ => none
  else some (.tooManyArguments form)

mutual
/-- The predicate of an expression in the query `cs`. -/
def build (cs : List Char) : Expression → Except Problem Predicate
  | .form start _ name nameStart arguments =>
    match Form.ofName? (String.ofList name) with
    | none => .error ⟨nameStart, .unknownForm (String.ofList name)⟩
    | some form =>
      match buildAll cs form 0 arguments with
      | .error problem => .error problem
      | .ok built => (form.construct built).mapError fun cause => ⟨start, .misuse cause⟩
  | .reference _ name => .ok (variablePredicate name)
  | .number start text => numberPredicate start text
  | .text _ content => .ok (.literal (.text (String.ofList content)))
/-- The predicates of the arguments of a form that follow the first `count`. -/
def buildAll (cs : List Char) (form : Form) (count : Nat) :
    List Expression → Except Problem (List Predicate)
  | [] => .ok []
  | e :: rest =>
    match misplaced? cs form count e with
    | some complaint => .error ⟨e.start, complaint⟩
    -- only an argument in its place is looked into
    | none =>
      match build cs e with
      | .error problem => .error problem
      | .ok p => (buildAll cs form (count + 1) rest).map (p :: ·)
end

def parseChars (cs : List Char) : Except Problem Predicate :=
  if (Text.trim cs).isEmpty then .ok .always
  else match Expression.read cs with
    | .error (offset, what) => .error ⟨offset, .expected what⟩
    | .ok e => build cs e

def parse (query : String) : Except Failure Predicate :=
  (parseChars query.toList).mapError fun problem =>
    ⟨Text.Location.ofOffset query.toList problem.offset, problem.complaint⟩

end Colloquy.Query
