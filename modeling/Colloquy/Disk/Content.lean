import Colloquy.Source.Rows

namespace Colloquy.Disk

inductive Content where
  | bytes (data : List UInt8)
  | database (rows : Source.Rows)
deriving DecidableEq

def databaseMark : List UInt8 := "message database".toUTF8.toList

/-- The bytes of a file. A database shows only how it begins. -/
def Content.data : Content → List UInt8
  | bytes data => data
  | database _ => databaseMark

end Colloquy.Disk
