import Colloquy.Source

/-!
A source in two relations, of messages and of the identities that joined a bout. Only numbers that
fit in 63 bits can be stored or asked for.
-/

namespace Colloquy.Source

structure Rows where
  messageRows : List Message := []
  participantRows : List (UInt64 × String) := []
deriving DecidableEq

def Storable (n : UInt64) : Prop := n.toNat ≤ 9223372036854775807

instance (n : UInt64) : Decidable (Storable n) := by unfold Storable; infer_instance

namespace Rows

def post (s : Rows) (m : Message) : Except Error Rows :=
  if Storable m.number ∧ Storable m.bout then
    -- a row that is replaced goes to the end
    .ok { s with messageRows := s.messageRows.filter (fun row => row.number ≠ m.number) ++ [m] }
  else .error .numberOutOfRange

/-- Inserts a row unless it is there. -/
def join (s : Rows) (bout : UInt64) (identity : String) : Except Error Rows :=
  if Storable bout then
    if (bout, identity) ∈ s.participantRows then .ok s
    else .ok { s with participantRows := s.participantRows ++ [(bout, identity)] }
  else .error .numberOutOfRange

def row? (s : Rows) (number : UInt64) : Option Message :=
  s.messageRows.find? fun row => row.number = number

def identities (s : Rows) (bout : UInt64) : List String :=
  ((s.participantRows.filter fun row => row.1 = bout).map Prod.snd).mergeSort
    fun a b => decide (a ≤ b)

def column? (s : Rows) (name : String) : Option (Message → Value) :=
  if name = "participants" then some fun row => .list ((s.identities row.bout).map .text)
  else if name = "number" then some fun row => .number row.number.toInt64
  else if name = "bout" then some fun row => .number row.bout.toInt64
  else if name = "author" then some fun row => .text row.author
  else if name = "text" then some fun row => .text row.text
  else if name = "date" then some fun row => .time row.date
  else none

def attr? (s : Rows) (number : UInt64) (name : String) : Except Error (Option Value) :=
  match s.column? name with
  -- an attribute without a column is unknown for any number, storable or not
  | none => .ok none
  | some column =>
    if Storable number then .ok ((s.row? number).map column) else .error .numberOutOfRange

def messages (s : Rows) (bout : UInt64) : Except Error (List Message) :=
  if Storable bout then
    .ok (Message.sortNewestFirst (s.messageRows.filter fun row => row.bout = bout))
  else .error .numberOutOfRange

def toSource (s : Rows) : Source where
  attr? := s.attr?
  messages := s.messages

end Rows

end Colloquy.Source
