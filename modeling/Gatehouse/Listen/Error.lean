/-!
# Errors of listeners
-/

namespace Gatehouse

inductive ListenerError where
  /-- There will be no more connections. -/
  | closed
  | alreadyClosed
  | noSource
  | io (text : String)
  | relay (text : String)
deriving DecidableEq, Repr

def ListenerError.message : ListenerError → String
  | closed => "Listener closed"
  | alreadyClosed => "Listener already closed"
  | noSource => "No connection source configured"
  | io text => text
  | relay text => "Relay error: " ++ text

end Gatehouse
