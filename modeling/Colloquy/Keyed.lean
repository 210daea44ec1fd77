/-!
Values under keys, listed in ascending order of the keys. A key occurs once.
-/

namespace Colloquy.Keyed
variable {κ α : Type} [Ord κ]

def find? (key : κ) : List (κ × α) → Option α
  | [] => none
  | (k, v) :: rest =>
    match compare key k with
    | .lt => none
    | .eq => some v
    | .gt => find? key rest

def insert (key : κ) (value : α) : List (κ × α) → List (κ × α)
  | [] => [(key, value)]
  | (k, v) :: rest =>
    match compare key k with
    | .lt => (key, value) :: (k, v) :: rest
    | .eq => (key, value) :: rest
    | .gt => (k, v) :: insert key value rest

def erase (key : κ) (entries : List (κ × α)) : List (κ × α) :=
  entries.filter fun entry => compare key entry.1 != .eq

/-- Puts all the values of a list under their keys; the last of a key stays. -/
def insertAll (entries : List (κ × α)) (into : List (κ × α)) : List (κ × α) :=
  entries.foldl (fun all entry => insert entry.1 entry.2 all) into

end Colloquy.Keyed
