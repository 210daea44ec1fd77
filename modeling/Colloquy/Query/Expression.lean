import Colloquy.Query.Token

/-!
The shape of a query, not yet checked against the catalog. Reading fails at the first token that
does not fit onto the stack of open forms.
-/

namespace Colloquy.Query

inductive Expression where
  | form (start stop : Nat) (name : List Char) (nameStart : Nat) (arguments : List Expression)
  | reference (start : Nat) (name : List Char)
  | number (start : Nat) (text : List Char)
  | text (start : Nat) (content : List Char)

def Expression.start : Expression → Nat
  | form start _ _ _ _ => start
  | reference start _ => start
  | number start _ => start
  | text start _ => start

inductive Expected where
  | expression
  | name
  | argument
  | finish
deriving DecidableEq

structure OpenForm where
  start : Nat
  name : List Char
  nameStart : Nat
  /-- The arguments read so far, latest first. -/
  arguments : List Expression
  afterComma : Bool

def OpenForm.push (f : OpenForm) (e : Expression) : OpenForm :=
  { f with arguments := e :: f.arguments, afterComma := false }

/-- How far a query has been read. Open forms are listed innermost first. -/
inductive Progress where
  | nothing
  /-- The parenthesis of a form has been read and its name is due. -/
  | opened (start : Nat) (outer : List OpenForm)
  | inside (inner : OpenForm) (outer : List OpenForm)
  | complete (e : Expression)

namespace Progress

def close (inner : OpenForm) (stop : Nat) (outer : List OpenForm) : Progress :=
  let e := Expression.form inner.start stop inner.name inner.nameStart inner.arguments.reverse
  match outer with
  | [] => complete e
  | next :: outer => inside (next.push e) outer

def expected : Progress → Expected
  | nothing => .expression
  | opened _ _ => .name
  | inside _ _ => .argument
  | complete _ => .finish

def take? (offset : Nat) : Progress → Token → Option Progress
  | nothing, .opening => some (opened offset [])
  | opened start outer, .name name => some (inside ⟨start, name, offset, [], false⟩ outer)
  | inside inner outer, .opening => some (opened offset (inner :: outer))
  | inside inner outer, .closing =>
    -- no comma before a closing parenthesis
    if inner.afterComma then none else some (close inner (offset + 1) outer)
  | inside inner outer, .comma =>
    if inner.afterComma || inner.arguments.isEmpty then none
    else some (inside { inner with afterComma := true } outer)
  | inside inner outer, .reference name => some (inside (inner.push (.reference offset name)) outer)
  | inside inner outer, .number text => some (inside (inner.push (.number offset text)) outer)
  | inside inner outer, .quoted text => some (inside (inner.push (.text offset text)) outer)
  | inside inner outer, .word text => some (inside (inner.push (.text offset text)) outer)
  | _, _ => none

/-- Takes all tokens of a text that ends at `stop`. A failure tells where and what was expected. -/
def takeAll (stop : Nat) : Progress → List (Nat × Token) → Except (Nat × Expected) Expression
  | complete e, [] => .ok e
  | p, [] => .error (stop, p.expected)
  | p, (offset, token) :: rest =>
    match p.take? offset token with
    | some next => takeAll stop next rest
    | none => .error (offset, p.expected)

end Progress

def Expression.read (cs : List Char) : Except (Nat × Expected) Expression :=
  Progress.nothing.takeAll cs.length (tokens cs)

end Colloquy.Query
