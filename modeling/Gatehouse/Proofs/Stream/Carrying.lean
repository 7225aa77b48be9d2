import Gatehouse.Stream.Splice
import Mathlib.Data.Seq.Basic

/-!
# What streams carry

A stream carries octets to its reader, without end perhaps, and others away from its writer.  What
is read at a time is up to the stream and to the reader, but joined together it is always the same;
this is all that has to be known of a stream to tell what comes through a splice.

    Duplex.Carries                  : the octets of a stream, whatever the sizes of reads and writes
    Duplex.Carries.incoming_readAll : reads of any sizes
    ScriptedStream.carries          : a scripted stream carries its segments
-/

namespace Gatehouse

open Stream' (Seq)

/-! ## Octets in front of a stream -/

/-- Some octets, and then what follows. -/
def Octets.then (bs : Octets) (rest : Seq UInt8) : Seq UInt8 := (Seq.ofList bs).append rest

namespace Octets

@[simp] theorem nil_then (rest : Seq UInt8) : Octets.then [] rest = rest :=
  Seq.nil_append rest

@[simp] theorem then_nil (bs : Octets) : bs.then .nil = Seq.ofList bs :=
  Seq.append_nil _

theorem append_then (bs cs : Octets) (rest : Seq UInt8) :
    Octets.then (bs ++ cs) rest = bs.then (cs.then rest) := by
  rw [Octets.then, Seq.ofList_append, Seq.append_assoc]
  rfl

theorem eq_nil_of_then_eq_nil {bs : Octets} {rest : Seq UInt8} (h : bs.then rest = .nil) :
    bs = [] ∧ rest = .nil := by
  cases bs with
  | nil => exact ⟨rfl, by simpa using h⟩
  | cons b bs =>
    rw [Octets.then, Seq.ofList_cons, Seq.cons_append] at h
    exact absurd h Seq.cons_ne_nil

end Octets

/-! ## Streams that carry octets -/

variable {ρ β : Type}

/-- What a stream carries in each of its states: what is still to be read, and all that has been
written.  A read takes its octets off the front of the former, a write adds those that it takes to
the latter, and neither matters to the other. -/
structure Duplex.Carries (d : Duplex ρ) where
  incoming : ρ → Seq UInt8
  written : ρ → Octets
  incoming_read : ∀ size r, incoming r = (d.read size r).1.octets.then (incoming (d.read size r).2)
  written_read : ∀ size r, written (d.read size r).2 = written r
  incoming_write : ∀ bs r, incoming (d.write bs r).2 = incoming r
  written_write : ∀ bs r,
    written (d.write bs r).2 = written r ++ bs.take ((d.write bs r).1.getD 0)
  /-- There is nothing more to come when a stream says so. -/
  ended : ∀ size r, (d.read size r).1 = .ended → incoming r = .nil
  /-- Who has room gets something, unless there is a reason. -/
  some_read : ∀ size r, 0 < size → (d.read size r).1 ≠ .data []
  fits : ∀ size r, (d.read size r).1.octets.length ≤ size

/-- What some reads have given. -/
def ReadResult.join (results : List ReadResult) : Octets := results.flatMap (·.octets)

namespace Duplex.Carries

variable {d : Duplex ρ}

/-- Reads of any sizes take octets off the front, in their order. -/
theorem incoming_readAll (io : d.Carries) (sizes : List Nat) (r : ρ) :
    io.incoming r = (ReadResult.join (readAll d.read sizes r).1).then
      (io.incoming (readAll d.read sizes r).2) := by
  induction sizes generalizing r with
  | nil => exact (Octets.nil_then _).symm
  | cons size sizes ih =>
    rw [io.incoming_read size r, ih]
    exact (Octets.append_then ..).symm

/-- Nothing is left when one of the reads has seen the end. -/
theorem ended_readAll (io : d.Carries) {sizes : List Nat} {r : ρ}
    (h : .ended ∈ (readAll d.read sizes r).1) : io.incoming (readAll d.read sizes r).2 = .nil := by
  induction sizes generalizing r with
  | nil => cases h
  | cons size sizes ih =>
    rcases List.mem_cons.mp h with hfirst | hmore
    · have hall : io.incoming r = .nil := io.ended size r hfirst.symm
      rw [io.incoming_readAll (size :: sizes) r] at hall
      exact (Octets.eq_nil_of_then_eq_nil hall).2
    · exact ih hmore

/-- Each read gives as much as fits at most, and something unless there is a reason. -/
theorem fits_readAll (io : d.Carries) {sizes : List Nat} (r : ρ)
    (h : ∀ size ∈ sizes, 0 < size) :
    List.Forall₂ (fun size result => result.octets.length ≤ size ∧ result ≠ .data [])
      sizes (readAll d.read sizes r).1 := by
  induction sizes generalizing r with
  | nil => exact .nil
  | cons size sizes ih =>
    obtain ⟨hsize, hsizes⟩ := List.forall_mem_cons.mp h
    exact .cons ⟨io.fits size r, io.some_read size r hsize⟩ (ih _ hsizes)

end Duplex.Carries

/-! ## Scripted streams -/

def Segment.octets : Segment → Octets
  | .data bs => bs
  | .failure => []

namespace ScriptedStream

/-- A read of segments takes off their first octets. -/
theorem octets_readSegments {hangs : Bool} {size : Nat} {gs gs' : List Segment}
    {result : ReadResult} (h : readSegments hangs size gs = (result, gs')) :
    gs.flatMap (·.octets) = result.octets ++ gs'.flatMap (·.octets) ∧
      result.octets.length ≤ size ∧ (result = .ended → gs.flatMap (·.octets) = []) ∧
      (0 < size → result ≠ .data []) := by
  fun_induction readSegments hangs size gs with
  | case1 =>
    obtain ⟨rfl, rfl⟩ := Prod.mk.inj h
    cases hangs <;> simp [ReadResult.octets]
  | case2 gs =>
    obtain ⟨rfl, rfl⟩ := Prod.mk.inj h
    simp [ReadResult.octets, Segment.octets]
  | case3 bs gs hempty ih =>
    obtain rfl : bs = [] := List.isEmpty_iff.mp hempty
    exact ih h
  | case4 bs gs hempty left =>
    obtain ⟨rfl, rfl⟩ := Prod.mk.inj h
    have hne : bs ≠ [] := by simpa using hempty
    have hall : bs.take size ++ left = bs := List.take_append_drop size bs
    refine ⟨?_, List.length_take_le size bs, nofun, fun hsize hnil => ?_⟩
    · cases hleft : left.isEmpty with
      | true =>
        rw [List.isEmpty_iff.mp hleft, List.append_nil] at hall
        simp [ReadResult.octets, Segment.octets, hall]
      | false =>
        simp [ReadResult.octets, Segment.octets, ← List.append_assoc, hall]
    · have htake : bs.take size = [] := ReadResult.data.inj hnil
      rcases List.take_eq_nil_iff.mp htake with rfl | hbs
      · exact absurd hsize (Nat.lt_irrefl 0)
      · exact hne hbs

def carries : duplex.Carries where
  incoming s := Seq.ofList (s.segments.flatMap (·.octets))
  written := written
  incoming_read size s := by
    rw [Octets.then, ← Seq.ofList_append]
    exact congrArg _ (octets_readSegments rfl).1
  written_read _ _ := rfl
  incoming_write _ _ := rfl
  written_write bs s := by simp [duplex, write]
  ended size s h := congrArg _ ((octets_readSegments rfl).2.2.1 h)
  some_read size s hsize := (octets_readSegments rfl).2.2.2 hsize
  fits size s := (octets_readSegments rfl).2.1

end ScriptedStream

end Gatehouse
