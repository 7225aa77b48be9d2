import Gatehouse.Net.SocketAddress
import Gatehouse.Provenance

/-!
# Addresses of listeners

A listener is reached at a socket of its own, at a port of a relay, or at several addresses if it
joins several sources.
-/

namespace Gatehouse

inductive ListenerAddress where
  /-- Nowhere so far. -/
  | empty
  | socket (address : Net.SocketAddress)
  | remote (host : String) (port : Nat)
  | composite (parts : List (Provenance × ListenerAddress))

namespace ListenerAddress

mutual

def text : ListenerAddress → String
  | empty => "<empty>"
  | socket a => a.text
  | remote host port => host ++ ":" ++ toString port
  | composite parts => "[" ++ ", ".intercalate (texts parts) ++ "]"

/-- The texts of the parts of an address, each with its provenance. -/
def texts : List (Provenance × ListenerAddress) → List String
  | [] => []
  | (p, a) :: r => (p.text ++ "=" ++ a.text) :: texts r

end

end ListenerAddress

end Gatehouse
