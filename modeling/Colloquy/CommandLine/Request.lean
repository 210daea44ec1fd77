import Colloquy.CommandLine.Arguments

/-!
What a command line asks for. An option that is given before the command and after it counts as it
is given after it.
-/

namespace Colloquy.CommandLine

inductive Command where
  | post (bout number : UInt64) (author text : String)
  | join (bout : UInt64) (identity : String)
  | query (bout : UInt64) (query : String) (millis : Option UInt64)
  | stats
deriving DecidableEq

inductive Request where
  | help
  | version
  | run (settingsFile logLevel : Option String) (command : Command)
deriving DecidableEq

def commonOptions : List Parameter :=
  [{ name := "config", letter := some 'c', required := false },
    { name := "log-level", letter := some 'l', required := false }]

def outerLevel : Level := ⟨commonOptions, [], true⟩

def levelOf? (command : String) : Option Level :=
  if command = "post" then
    some ⟨commonOptions ++ [{ name := "bout", kind := .number },
      { name := "number", kind := .number }, { name := "author" }], [{ name := "text" }], false⟩
  else if command = "join" then
    some ⟨commonOptions, [{ name := "bout", kind := .number }, { name := "identity" }], false⟩
  else if command = "query" then
    some ⟨commonOptions ++ [{ name := "timeout-ms", kind := .number, required := false }],
      [{ name := "bout", kind := .number }, { name := "query", required := false }], false⟩
  else if command = "stats" then some ⟨commonOptions, [], false⟩
  else none

namespace Given

def number? (given : Given) (name : String) : Option UInt64 :=
  (given.value? name).bind Settings.readWord

def command? (given : Given) (name : String) : Option Command :=
  if name = "post" then do
    some (.post (← given.number? "bout") (← given.number? "number") (← given.value? "author")
      (← given.value? "text"))
  else if name = "join" then do
    some (.join (← given.number? "bout") (← given.value? "identity"))
  else if name = "query" then do
    some (.query (← given.number? "bout") ((given.value? "query").getD "")
      (given.number? "timeout-ms"))
  else if name = "stats" then some .stats
  else none

end Given

/-- A request for help, perhaps on a command. -/
def helpOn : List String → Except Misuse Request
  | [] => .ok .help
  | [name] =>
    if name = "help" ∨ (levelOf? name).isSome then .ok .help else .error (.unexpected name)
  | _ :: name :: _ => .error (.unexpected name)

def Request.ofCommand (outer : Given) (name : String) (arguments : List String) :
    Except Misuse Request :=
  match levelOf? name with
  | none => .error (.unexpected name)
  | some level =>
    match level.take [] level.operands false arguments with
    | .error misuse => .error misuse
    | .ok .help => .ok .help
    | .ok .version => .ok .version
    | .ok (.surplus _ operand _ _) => .error (.unexpected operand)
    | .ok (.complete given) =>
      match level.check given, given.command? name with
      | .error misuse, _ => .error misuse
      | .ok _, none => .error .commandMissing
      | .ok _, some command =>
        let common (option : String) : Option String :=
          (given.value? option).or (outer.value? option)
        .ok (.run (common "config") (common "log-level") command)

def Request.ofArguments (arguments : List String) : Except Misuse Request :=
  match outerLevel.take [] [] false arguments with
  | .error misuse => .error misuse
  | .ok .help => .ok .help
  | .ok .version => .ok .version
  | .ok (.complete _) => .error .commandMissing
  | .ok (.surplus outer name escaped rest) =>
    if escaped then .error (.unexpected name)
    else if name = "help" then helpOn rest
    else ofCommand outer name rest

end Colloquy.CommandLine
