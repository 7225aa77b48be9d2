/-!
# Where connections come from
-/

namespace Gatehouse

/-- How a connection reached the gateway: straight by TCP, or through the relay. -/
inductive Provenance where
  | direct
  | tunnel
deriving DecidableEq, Repr

def Provenance.text : Provenance → String
  | direct => "direct-tcp"
  | tunnel => "tunnel"

end Gatehouse
