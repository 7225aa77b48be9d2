import Gatehouse.Stream.Basic

/-!
# Joining two streams

Two streams are joined by copying what is read from each to the other.  Each direction has a buffer:
reads fill it as long as there is room, and writes take from it as much as they like.  A direction
ends with its source; a failure ends both.

    Copying       : one direction
    Splice.step?  : one read or write
    Splice.settle : all that can be copied
-/

namespace Gatehouse

structure Copying where
  /-- What was read and is still to be written. -/
  buffer : Octets := []
  /-- Whether the source has ended. -/
  ended : Bool := false
  failed : Bool := false
deriving DecidableEq, Repr

namespace Copying

def room : Nat := 8192

/-- A read into the rest of the buffer, unless the source is silent; no octets are its end. -/
def read? {ρ : Type} (read : ReadFrom ρ) (size : Nat) (c : Copying) (r : ρ) :
    Option (Copying × ρ) :=
  if c.ended || size = 0 || room < c.buffer.length + size then none
  else match read size r with
    | (.pending, _) => none
    | (.failed, r) => some ({ c with failed := true }, r)
    | (.ended, r) => some ({ c with ended := true }, r)
    | (.data bs, r) => some ({ c with buffer := c.buffer ++ bs, ended := bs.isEmpty }, r)

/-- A write of what is in the buffer; to take nothing is to fail. -/
def write? {β : Type} (write : WriteTo β) (c : Copying) (b : β) : Option (Copying × β) :=
  if c.buffer.isEmpty then none
  else match write c.buffer b with
    | (some (n + 1), b) => some ({ c with buffer := c.buffer.drop (n + 1) }, b)
    | (_, b) => some ({ c with failed := true }, b)

def isDone (c : Copying) : Bool := c.ended && c.buffer.isEmpty

end Copying

/-- A client whose stream is joined to that of a backend. -/
structure Splice (ρ β : Type) where
  client : ρ
  backend : β
  /-- From the client to the backend. -/
  up : Copying := {}
  /-- From the backend to the client. -/
  down : Copying := {}

namespace Splice

variable {ρ β : Type}

/-- One read or write. -/
inductive Event where
  | readClient (size : Nat)
  | writeBackend
  | readBackend (size : Nat)
  | writeClient
deriving DecidableEq, Repr

def failed (s : Splice ρ β) : Bool := s.up.failed || s.down.failed

/-- Whether there is nothing more to copy. -/
def isOver (s : Splice ρ β) : Bool := s.failed || (s.up.isDone && s.down.isDone)

def step? (c : Duplex ρ) (b : Duplex β) (s : Splice ρ β) (e : Event) : Option (Splice ρ β) :=
  if s.failed then none
  else match e with
    | .readClient size =>
      (s.up.read? c.read size s.client).map fun (up, client) => { s with up, client }
    | .writeBackend =>
      (s.up.write? b.write s.backend).map fun (up, backend) => { s with up, backend }
    | .readBackend size =>
      (s.down.read? b.read size s.backend).map fun (down, backend) => { s with down, backend }
    | .writeClient =>
      (s.down.write? c.write s.client).map fun (down, client) => { s with down, client }

def run? (c : Duplex ρ) (b : Duplex β) (s : Splice ρ β) (es : List Event) :
    Option (Splice ρ β) :=
  es.foldlM (step? c b) s

/-- Copies as much as it can at a time until nothing can be copied. -/
def settle (c : Duplex ρ) (b : Duplex β) : (fuel : Nat) → Splice ρ β → Splice ρ β
  | 0, s => s
  | fuel + 1, s =>
    let moves := [.writeBackend, .writeClient, .readClient Copying.room, .readBackend Copying.room]
    match moves.findSome? (step? c b s) with
    | some s => settle c b fuel s
    | none => s

end Splice

end Gatehouse
