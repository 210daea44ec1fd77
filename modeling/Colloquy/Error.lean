import Colloquy.Disk.Fault
import Colloquy.Index.Corruption
import Colloquy.Query
import Colloquy.Value.Comparison

/-!
Everything that can go wrong between a query and its answer.
-/

namespace Colloquy

inductive Error where
  | query (failure : Query.Failure)
  | mismatch (cause : TypeMismatch)
  | corrupted (name : String) (cause : Index.Corruption)
  | invalidName (name : String)
  | disk (fault : Disk.Fault)
  | numberOutOfRange
  | cancelled
  /-- The budget of a query was spent before it ended. -/
  | timeout
deriving DecidableEq

def Error.message : Error → String
  | query failure => s!"Parse error: {failure.complaint.message}"
  | mismatch cause => s!"Type mismatch: {cause.message}"
  | corrupted name cause => s!"Index '{name}' is corrupted: {cause.message}"
  | invalidName name => s!"Invalid index name: '{name}'"
  | disk fault => s!"Persistence error: {fault.message}"
  | numberOutOfRange => "Message source error: out of range integral type conversion attempted"
  | cancelled => "Query cancelled"
  | timeout => "Query timed out"

end Colloquy
