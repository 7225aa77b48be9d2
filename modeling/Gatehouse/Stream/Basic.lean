import Gatehouse.Octets

/-!
# Streams

A stream is read piece by piece.  A read gives some octets, or tells that the stream has ended or
failed, or does not return.  A write takes the first of the octets that it is given.
-/

namespace Gatehouse

inductive ReadResult where
  | data (octets : Octets)
  | ended
  | failed
  /-- The read does not return. -/
  | pending
deriving DecidableEq, Repr

def ReadResult.octets : ReadResult → Octets
  | .data bs => bs
  | _ => []

/-- A stream whose state is of type `ρ`: a read is given the size of the reader's buffer. -/
abbrev ReadFrom (ρ : Type) := (size : Nat) → ρ → ReadResult × ρ

/-- A stream that is written to: how many of the octets are taken, from the first one on, unless the
write fails. -/
abbrev WriteTo (ρ : Type) := (octets : Octets) → ρ → Option Nat × ρ

/-- A stream that is read and written to. -/
structure Duplex (ρ : Type) where
  read : ReadFrom ρ
  write : WriteTo ρ

/-- Something that a scripted stream gives to its reader. -/
inductive Segment where
  | data (octets : Octets)
  | failure
deriving DecidableEq, Repr

/-- A stream whose reads are laid down beforehand. -/
structure ScriptedStream where
  segments : List Segment
  /-- Whether the stream stays open in silence after its last segment. -/
  hangs : Bool := false
  /-- What was written to the stream. -/
  written : Octets := []
deriving DecidableEq, Repr

namespace ScriptedStream

/-- A read never joins two segments; a segment longer than the buffer takes several reads. -/
def readSegments (hangs : Bool) (size : Nat) : List Segment → ReadResult × List Segment
  | [] => (if hangs then .pending else .ended, [])
  | .failure :: r => (.failed, r)
  | .data bs :: r =>
    if bs.isEmpty then readSegments hangs size r
    else
      let left := bs.drop size
      (.data (bs.take size), if left.isEmpty then r else .data left :: r)

/-- A read with a buffer of the given size. -/
def read : ReadFrom ScriptedStream := fun size s =>
  let (result, segments) := readSegments s.hangs size s.segments
  (result, { s with segments })

/-- A bound for the number of reads up to the end of the stream. -/
def reads (s : ScriptedStream) : Nat :=
  s.segments.length + (s.segments.map fun g => match g with
    | .data bs => bs.length
    | .failure => 0).foldl (· + ·) 1

/-- A write takes all octets. -/
def write : WriteTo ScriptedStream := fun bs s =>
  (some bs.length, { s with written := s.written ++ bs })

/-- Scripted streams in both directions. -/
def duplex : Duplex ScriptedStream := ⟨read, write⟩

end ScriptedStream

/-- Reads with buffers of the given sizes, one after the other. -/
def readAll {ρ : Type} (read : ReadFrom ρ) : (sizes : List Nat) → ρ → List ReadResult × ρ
  | [], r => ([], r)
  | size :: sizes, r =>
    let (result, r) := read size r
    let (results, r) := readAll read sizes r
    (result :: results, r)

/-- Reads until the end, a failure or silence, with `fuel` bounding the number of reads. -/
def readToEnd {ρ : Type} (read : ReadFrom ρ) (size : Nat) :
    (fuel : Nat) → ρ → Octets × ReadResult × ρ
  | 0, s => ([], .pending, s)
  | fuel + 1, s =>
    match read size s with
    | (.data bs, s) =>
      let (more, last, s) := readToEnd read size fuel s
      (bs ++ more, last, s)
    | (last, s) => ([], last, s)

end Gatehouse
