import Gatehouse.Tls.Acceptor
import Gatehouse.Stream.Basic

/-!
# Peeking at a Client Hello

The stream is read up to the end of its Client Hello without being answered.  Every octet read is
kept, so that the stream can be given to another reader as if nobody had read from it.

Who goes on to shake hands reads the hello in the same way, but straight into the acceptor, so that
the acceptor says how much is read at a time.

    peek             : reads until the acceptor knows, for any stream and any acceptor
    receive          : the same by reads of the acceptor's own sizes
    PeekedStream     : what was read, in front of what is still to come; writes pass by
-/

namespace Gatehouse.Tls

/-- The most octets that are kept while waiting for a hello. -/
def maxHello : Nat := 65536

/-- The size of the buffer for one read. -/
def chunkSize : Nat := 4096

inductive HelloError where
  | ended
  | tooLarge
  | io
  | invalid
deriving DecidableEq, Repr

/-- The text shown for the error, where it is of the gateway's own. -/
def HelloError.message? : HelloError → Option String
  | ended => some "Connection closed before Client Hello"
  | tooLarge => some "Client Hello is too large"
  | _ => none

/-- A stream in front of which stand octets that were read from it. -/
structure PeekedStream (ρ : Type) where
  kept : Octets
  inner : ρ
deriving DecidableEq, Repr

/-- A read takes from what was kept first and never mixes that with new octets. -/
def PeekedStream.read {ρ : Type} (readInner : ReadFrom ρ) : ReadFrom (PeekedStream ρ) :=
  fun size s =>
    if s.kept.isEmpty then
      let (result, inner) := readInner size s.inner
      (result, { s with inner })
    else (.data (s.kept.take size), { s with kept := s.kept.drop size })

/-- Writes are not held up by what was kept. -/
def PeekedStream.write {ρ : Type} (writeInner : WriteTo ρ) : WriteTo (PeekedStream ρ) :=
  fun bs s =>
    let (taken, inner) := writeInner bs s.inner
    (taken, { s with inner })

def PeekedStream.duplex {ρ : Type} (d : Duplex ρ) : Duplex (PeekedStream ρ) :=
  ⟨PeekedStream.read d.read, PeekedStream.write d.write⟩

inductive Peeked (ρ : Type) where
  | hello (hello : Hello) (stream : PeekedStream ρ)
  | failed (error : HelloError)
  /-- The stream is silent before the hello is complete. -/
  | pending

/-- Reads on after `kept` was read and fed to the acceptor; how much is read at a time depends on
the state of the acceptor. -/
def peekFrom {ρ σ : Type} (read : ReadFrom ρ) (a : Acceptor σ) (size : σ → Nat) (kept : Octets)
    (s : σ) (r : ρ) : Peeked ρ :=
  if size s = 0 then .failed .io
  else match read (size s) r with
  | (.pending, _) => .pending
  | (.failed, _) => .failed .io
  | (.ended, _) => .failed .ended
  | (.data [], _) => .failed .ended
  | (.data (b :: bs), r) =>
    if _h : maxHello < kept.length + (b :: bs).length then .failed .tooLarge
    else match a.feed s (b :: bs) with
      | none => .failed .io
      | some s =>
        match a.judge s with
        | .hello hello => .hello hello ⟨kept ++ b :: bs, r⟩
        | .invalid => .failed .invalid
        | .more s => peekFrom read a size (kept ++ b :: bs) s r
termination_by maxHello + 1 - kept.length
decreasing_by
  simp only [List.length_append, List.length_cons] at _h ⊢
  omega

/-- Reads a stream up to the end of its Client Hello. -/
def peek {ρ σ : Type} (read : ReadFrom ρ) (a : Acceptor σ) (r : ρ) : Peeked ρ :=
  peekFrom read a (fun _ => chunkSize) [] a.init r

/-- Reads a stream for a handshake up to the end of its Client Hello.  An acceptor is full before
the limit on what is kept is reached. -/
def receive {ρ σ : Type} (read : ReadFrom ρ) (a : Acceptor σ) (r : ρ) : Peeked ρ :=
  peekFrom read a a.offer [] a.init r

end Gatehouse.Tls
