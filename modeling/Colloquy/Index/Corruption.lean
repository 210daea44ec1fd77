namespace Colloquy.Index

inductive Corruption where
  | missingHeader
  | unreadableHeader
  | unsupportedFormat (format : Nat)
  | foreign (owner : String)
  | checksumMismatch
  | unreadableEntries
  | wrongCount (announced found : Nat)
deriving DecidableEq, Repr

def Corruption.message : Corruption → String
  | missingHeader => "missing header line"
  | unreadableHeader => "unreadable header"
  | unsupportedFormat format => s!"unsupported format {format}"
  | foreign owner => s!"file belongs to index '{owner}'"
  | checksumMismatch => "checksum mismatch"
  | unreadableEntries => "unreadable entries"
  | wrongCount announced found => s!"expected {announced} entries, found {found}"

end Colloquy.Index
