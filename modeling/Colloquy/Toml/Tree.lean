import Colloquy.Toml.Scalar

/-!
The rules by which the tables of TOML grow. A table may be defined once, by a header; before that,
headers of tables inside it may imply it.
-/

namespace Colloquy

inductive Toml.Origin where
  | header
  | implied
  | dotted
  | braces
deriving DecidableEq

inductive Toml where
  | scalar (value : Toml.Scalar)
  | array (items : List Toml)
  | table (origin : Toml.Origin) (fields : List (String × Toml))
  /-- Tables under one name, each with a header of its own. -/
  | tables (elements : List Toml)

namespace Toml

def field? (name : String) : List (String × Toml) → Option Toml
  | [] => none
  | (n, value) :: rest => if n = name then some value else field? name rest

def setField (name : String) (value : Toml) : List (String × Toml) → List (String × Toml)
  | [] => [(name, value)]
  | (n, v) :: rest =>
    if n = name then (name, value) :: rest else (n, v) :: setField name value rest

/-- Whether headers, or else dotted keys, may lead into a table. -/
def Origin.leadsOn (byKey : Bool) : Origin → Bool
  | braces => false
  | header => !byKey
  | implied | dotted => true

/-- Changes the table that steps lead to. Missing tables on the way are made. Where there are many
tables under one name, the way leads into the last. -/
def alter (byKey : Bool) (change : Toml → Option Toml) : List String → Toml → Option Toml
  | [], t => change t
  | step :: steps, .table origin fields =>
    let changed :=
      match field? step fields with
      | none => alter byKey change steps (.table (if byKey then .dotted else .implied) [])
      | some (.table inner inside) =>
        if inner.leadsOn byKey then alter byKey change steps (.table inner inside) else none
      | some (.tables elements) =>
        (elements.getLast?.bind (alter byKey change steps)).map fun last =>
          .tables (elements.dropLast ++ [last])
      | some _ => none
    changed.map fun value => .table origin (setField step value fields)
  | _ :: _, _ => none

def addField (name : String) (value : Toml) : Toml → Option Toml
  | .table origin fields =>
    if (field? name fields).isSome then none else some (.table origin (setField name value fields))
  | _ => none

def addKey (key : List String) (value : Toml) (t : Toml) : Option Toml :=
  key.getLast?.bind fun name => alter true (addField name value) key.dropLast t

def defineTable (name : String) : Toml → Option Toml
  | .table origin fields =>
    match field? name fields with
    | none => some (.table origin (setField name (.table .header []) fields))
    | some (.table .implied inside) =>
      some (.table origin (setField name (.table .header inside) fields))
    | some _ => none
  | _ => none

def defineElement (name : String) : Toml → Option Toml
  | .table origin fields =>
    match field? name fields with
    | none => some (.table origin (setField name (.tables [.table .header []]) fields))
    | some (.tables elements) =>
      some (.table origin (setField name (.tables (elements ++ [.table .header []])) fields))
    | some _ => none
  | _ => none

def addHeader (define : String → Toml → Option Toml) (key : List String) (t : Toml) :
    Option Toml :=
  key.getLast?.bind fun name => alter false (define name) key.dropLast t

end Toml

end Colloquy
