/-!
What the medium answers when a file cannot be reached, read or written.
-/

namespace Colloquy.Disk

inductive Fault where
  | notPermitted
  | notFound
  | busy
  | alreadyExists
  | notADirectory
  | isADirectory
  | nameTooLong
  | nulInName
deriving DecidableEq, Repr

/-- The number that goes with a fault; a path that is never looked up has none. -/
def Fault.code? : Fault → Option Nat
  | notPermitted => some 1
  | notFound => some 2
  | busy => some 16
  | alreadyExists => some 17
  | notADirectory => some 20
  | isADirectory => some 21
  | nameTooLong => some 36
  | nulInName => none

def Fault.description : Fault → String
  | notPermitted => "Operation not permitted"
  | notFound => "No such file or directory"
  | busy => "Device or resource busy"
  | alreadyExists => "File exists"
  | notADirectory => "Not a directory"
  | isADirectory => "Is a directory"
  | nameTooLong => "File name too long"
  | nulInName => "file name contained an unexpected NUL byte"

def Fault.message (f : Fault) : String :=
  match f.code? with
  | some code => s!"{f.description} (os error {code})"
  | none => f.description

end Colloquy.Disk
