import Colloquy.Settings.Item

/-!
Arguments are taken from left to right. Whatever begins with a hyphen is an option until two hyphens
stand alone; a single hyphen is an operand.
-/

namespace Colloquy.CommandLine

inductive Kind where
  | text
  | number
deriving DecidableEq

/-- An option, by its long name and perhaps a letter, or an operand. -/
structure Parameter where
  name : String
  letter : Option Char := none
  kind : Kind := .text
  required : Bool := true
deriving DecidableEq

inductive Misuse where
  | unexpected (argument : String)
  | repeated (name : String)
  | valueMissing (name : String)
  | invalidValue (name value : String)
  | missing (name : String)
  | commandMissing
deriving DecidableEq

def Misuse.message : Misuse → String
  | unexpected argument => s!"unexpected argument '{argument}' found"
  | repeated name => s!"the argument '{name}' cannot be used multiple times"
  | valueMissing name => s!"a value is required for '{name}' but none was supplied"
  | invalidValue name value => s!"invalid value '{value}' for '{name}'"
  | missing name => s!"the required argument '{name}' was not provided"
  | commandMissing => "a command is required but none was provided"

structure Level where
  options : List Parameter
  /-- The operands in their order. Before the command there are none: the first is the command. -/
  operands : List Parameter
  versioned : Bool
deriving DecidableEq

abbrev Given := List (String × String)

inductive Ending where
  | complete (given : Given)
  | help
  | version
  /-- An operand that no parameter is left for, and what follows it. -/
  | surplus (given : Given) (operand : String) (escaped : Bool) (rest : List String)

namespace Kind

def admits : Kind → String → Bool
  | text, _ => true
  | number, value => (Settings.readWord value).isSome

end Kind

def Given.add (given : Given) (p : Parameter) (value : String) : Except Misuse Given :=
  if given.any fun entry => entry.1 = p.name then .error (.repeated p.name)
  else if p.kind.admits value then .ok (given ++ [(p.name, value)])
  else .error (.invalidValue p.name value)

def Given.value? (given : Given) (name : String) : Option String :=
  (given.find? fun entry => entry.1 = name).map Prod.snd

def splitAttached (cs : List Char) : String × Option String :=
  let name := String.ofList (cs.takeWhile (· ≠ '='))
  match cs.dropWhile (· ≠ '=') with
  | [] => (name, none)
  | _ :: value => (name, some (String.ofList value))

def attachedToLetter : List Char → Option String
  | [] => none
  | '=' :: value => some (String.ofList value)
  | value => some (String.ofList value)

inductive Argument where
  | escape
  | help
  | version
  | option (parameter : Parameter) (attached : Option String)
  | operand
  | unknown

def Level.classify (level : Level) (argument : String) : Argument :=
  match argument.toList with
  | ['-', '-'] => .escape
  | '-' :: '-' :: cs =>
    let (name, attached) := splitAttached cs
    if name = "help" ∧ attached = none then .help
    else if level.versioned ∧ name = "version" ∧ attached = none then .version
    else match level.options.find? fun p => p.name = name with
      | some p => .option p attached
      | none => .unknown
  | '-' :: letter :: cs =>
    if letter = 'h' then .help
    else if level.versioned ∧ letter = 'V' then .version
    else match level.options.find? fun p => p.letter = some letter with
      | some p => .option p (attachedToLetter cs)
      | none => .unknown
  | _ => .operand

def isValue (argument : String) : Bool :=
  match argument.toList with
  | '-' :: _ :: _ => false
  | _ => true

/-- Takes arguments at a level, with some values given and some operands left. After an escape all
arguments are operands. -/
def Level.take (level : Level) (given : Given) (left : List Parameter) (escaped : Bool) :
    List String → Except Misuse Ending
  | [] => .ok (.complete given)
  | argument :: rest =>
    match if escaped then Argument.operand else level.classify argument with
    | .escape => level.take given left true rest
    | .help => .ok .help
    | .version => .ok .version
    | .unknown => .error (.unexpected argument)
    | .operand =>
      match left with
      | [] => .ok (.surplus given argument escaped rest)
      | p :: left =>
        match given.add p argument with
        | .error misuse => .error misuse
        | .ok given => level.take given left escaped rest
    | .option p (some value) =>
      match given.add p value with
      | .error misuse => .error misuse
      | .ok given => level.take given left escaped rest
    | .option p none =>
      -- The value is the next argument, unless that looks like an option itself.
      match rest with
      | [] => .error (.valueMissing p.name)
      | value :: rest =>
        if isValue value then
          match given.add p value with
          | .error misuse => .error misuse
          | .ok given => level.take given left escaped rest
        else .error (.valueMissing p.name)

def Level.check (level : Level) (given : Given) : Except Misuse Unit :=
  match (level.options ++ level.operands).find? fun p =>
      p.required && !(given.value? p.name).isSome with
  | some p => .error (.missing p.name)
  | none => .ok ()

end Colloquy.CommandLine
