import Colloquy.Error
import Colloquy.Message

/-!
Sources tell attributes of messages that no index holds.
-/

namespace Colloquy

structure Source where
  /-- An attribute of a message, if anything is known about it. Besides what a message carries,
  `participants` lists the identities that take part in its bout. -/
  attr? : UInt64 → String → Except Error (Option Value)
  /-- All messages of a bout, newest first. -/
  messages : UInt64 → Except Error (List Message)

end Colloquy
