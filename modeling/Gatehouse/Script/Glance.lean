import Gatehouse.Tls.Acceptor
import Gatehouse.Tls.Peek

/-!
# Trying out a stream that was peeked at

Some reads, two writes of the same octets, and then all that is left.
-/

namespace Gatehouse.Script

/-- What is seen of a stream. -/
structure Glance where
  reads : List ReadResult
  rest : Octets
  /-- How the stream ends. -/
  last : ReadResult
  /-- All that was written to it. -/
  written : Octets

/-- A scripted stream that was peeked at. -/
abbrev SeenStream := Tls.PeekedStream ScriptedStream

/-- Such streams in both directions. -/
def seen : Duplex SeenStream := Tls.PeekedStream.duplex ScriptedStream.duplex

def manyReads : Nat := 100000

def readRest (s : SeenStream) : Octets × ReadResult × SeenStream :=
  readToEnd seen.read Tls.chunkSize manyReads s

/-- Reads of some sizes, writes, and the rest. -/
def glance (sizes : List Nat) (write : Octets) (s : SeenStream) : Glance :=
  let (reads, s) := readAll seen.read sizes s
  let (_, s) := seen.write write s
  let (_, s) := seen.write write s
  let (rest, last, s) := readRest s
  ⟨reads, rest, last, s.inner.written⟩

end Gatehouse.Script
