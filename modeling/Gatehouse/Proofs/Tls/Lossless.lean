import Gatehouse.Proofs.Stream.Draining
import Gatehouse.Proofs.Tls.Replaying

/-!
# No octet is lost by peeking

Peeking takes octets off the front of a stream and keeps them, and who reads from the peeked stream
gets those first, in portions that may cut them anywhere, and then what the stream itself gives.  So
the peeked stream carries what the stream carried, and a backend that it is joined to receives that.

    Reads.carried        : what is read is taken off the front
    PeekedStream.carries : what a peeked stream carries
    Forwarded            : what has come of a stream that is joined to a backend
    GetsThrough          : all that is to come of it in the end
    nothing_lost_by_peek : reads, writes and splices of a stream that was peeked at
-/

namespace Gatehouse

open Stream' (Seq)

variable {ρ σ : Type} {d : Duplex ρ}

/-- Reads take off the front what they give, and write nothing. -/
theorem Reads.carried (io : d.Carries) {r r' : ρ} {bs : Octets} (h : Reads d.read r bs r') :
    io.incoming r = bs.then (io.incoming r') ∧ io.written r' = io.written r := by
  induction h with
  | done r => exact ⟨(Octets.nil_then _).symm, rfl⟩
  | @more r r₁ r₂ size bs cs first _ ih =>
    have hread := io.incoming_read size r
    have hwritten := io.written_read size r
    rw [first] at hread hwritten
    refine ⟨?_, ih.2.trans hwritten⟩
    rw [hread, ih.1, Octets.append_then]
    rfl

theorem Reads.reliable {ok : ρ → Prop} (hd : d.Reliable ok) {r r' : ρ} {bs : Octets}
    (h : Reads d.read r bs r') (hr : ok r) : ok r' := by
  induction h with
  | done r => exact hr
  | @more r r₁ r₂ size bs cs first _ ih =>
    have hok := (hd.read size r hr).2
    rw [first] at hok
    exact ih hok

namespace Tls

/-- A peeked stream carries what was kept and then what the stream behind it carries; what is
written to it is written there. -/
def PeekedStream.carries (io : d.Carries) : (PeekedStream.duplex d).Carries where
  incoming p := p.kept.then (io.incoming p.inner)
  written p := io.written p.inner
  incoming_read size p := by
    obtain ⟨kept, inner⟩ := p
    cases kept with
    | nil =>
      rw [Octets.nil_then, io.incoming_read size inner]
      exact congrArg _ (Octets.nil_then _).symm
    | cons b bs =>
      show Octets.then (b :: bs) _ = Octets.then ((b :: bs).take size) (Octets.then
        ((b :: bs).drop size) (io.incoming inner))
      rw [← Octets.append_then, List.take_append_drop]
  written_read size p := by
    obtain ⟨kept, inner⟩ := p
    cases kept with
    | nil => exact io.written_read size inner
    | cons b bs => rfl
  incoming_write bs p := congrArg _ (io.incoming_write bs p.inner)
  written_write bs p := io.written_write bs p.inner
  ended size p h := by
    obtain ⟨kept, inner⟩ := p
    cases kept with
    | nil => rw [Octets.nil_then, io.ended size inner h]
    | cons b bs => cases h
  some_read size p hsize := by
    obtain ⟨kept, inner⟩ := p
    cases kept with
    | nil => exact io.some_read size inner hsize
    | cons b bs =>
      obtain ⟨n, rfl⟩ := Nat.exists_eq_add_of_lt hsize
      simp [PeekedStream.duplex, PeekedStream.read]
  fits size p := by
    obtain ⟨kept, inner⟩ := p
    cases kept with
    | nil => exact io.fits size inner
    | cons b bs => exact List.length_take_le size _

theorem PeekedStream.incoming_carries (io : d.Carries) (p : PeekedStream ρ) :
    (PeekedStream.carries io).incoming p = p.kept.then (io.incoming p.inner) := rfl

/-- Peeking takes nothing off what a stream carries, and writes nothing to it. -/
theorem carried_of_peek (io : d.Carries) {a : Acceptor σ} {r : ρ} {hello : Hello}
    {p : PeekedStream ρ} (h : peek d.read a r = .hello hello p) :
    (PeekedStream.carries io).incoming p = io.incoming r ∧
      (PeekedStream.carries io).written p = io.written r := by
  have hreads : Reads d.read r p.kept p.inner := reads_of_peekFrom (.done r) h
  obtain ⟨hincoming, hwritten⟩ := hreads.carried io
  exact ⟨hincoming.symm, hwritten⟩

/-- A peeked stream is silent when the stream behind it is and nothing is kept. -/
theorem silent_of_read {size : Nat} {p : PeekedStream ρ}
    (h : (PeekedStream.read d.read size p).1 = .pending) :
    p.kept = [] ∧ (d.read size p.inner).1 = .pending := by
  obtain ⟨kept, inner⟩ := p
  cases kept with
  | nil => exact ⟨rfl, h⟩
  | cons b bs => cases h

/-- What is kept can be read without fail. -/
theorem PeekedStream.reliable {ok : ρ → Prop} (hd : d.Reliable ok) :
    (PeekedStream.duplex d).Reliable fun p => ok p.inner where
  read size p hp := by
    obtain ⟨kept, inner⟩ := p
    cases kept with
    | nil => exact hd.read size inner hp
    | cons b bs => exact ⟨nofun, hp⟩
  write bs p hp := hd.write bs p.inner hp

/-! ## Specification -/

section

variable {β : Type} {b : Duplex β}

/-- What has come of a stream that was peeked at and joined to a backend, after some reads and
writes in both directions. -/
structure Forwarded (io : d.Carries) (bio : b.Carries) (r : ρ) (backend : β)
    (s : Splice (PeekedStream ρ) β) : Prop where
  /-- The backend has received the stream from its first octet, and the client has been sent what
  the backend sends. -/
  passed : ∃ received sent : Octets,
    bio.written s.backend = bio.written backend ++ received ∧
    io.written s.client.inner = io.written r ++ sent ∧
    io.incoming r = received.then (s.up.buffer.then
      (s.client.kept.then (io.incoming s.client.inner))) ∧
    bio.incoming backend = sent.then (s.down.buffer.then (bio.incoming s.backend))
  /-- A write passes on one octet at least, unless the backend takes none. -/
  writes : ∀ t, Splice.step? (PeekedStream.duplex d) b s .writeBackend = some t →
    ∃ more, bio.written t.backend = bio.written s.backend ++ more ∧
      (more = [] → t.failed = true ∧ (b.write s.up.buffer s.backend).1.getD 0 = 0)
  /-- When nothing more can be copied to the backend, it has received all there is, or all up to
  where the client is silent. -/
  quiet : s.failed = false →
    (∀ e, e.isUp = true → Splice.step? (PeekedStream.duplex d) b s e = none) →
    ∃ received : Octets, bio.written s.backend = bio.written backend ++ received ∧
      (io.incoming r = Seq.ofList received ∨
        io.incoming r = received.then (io.incoming s.client.inner) ∧
          (d.read Copying.room s.client.inner).1 = .pending)

/-- What comes in the end of a stream of finitely many octets, from wherever the splice is. -/
structure GetsThrough (d : Duplex ρ) (bio : b.Carries) (all : Octets) (r : ρ) (backend : β)
    (start : Splice (PeekedStream ρ) β) : Prop where
  /-- There are not many reads and writes to make, and who makes them comes to where there are
  none. -/
  ends : ∀ es s, Splice.run? (PeekedStream.duplex d) b start es = some s →
    es.countP Splice.Event.isUp ≤ 2 * all.length + 2 ∧
    ∃ es' t, Splice.run? (PeekedStream.duplex d) b s es' = some t ∧
      ∀ e, e.isUp = true → Splice.step? (PeekedStream.duplex d) b t e = none
  /-- Between a client that is never silent and a backend, neither of which fails, nothing fails,
  and the backend receives exactly the octets of the client. -/
  whole : ∀ okr okb, d.Reliable okr → b.Reliable okb → okr r → okb backend →
    (∀ size r', okr r' → (d.read size r').1 ≠ .pending) →
    (∃ es s, Splice.run? (PeekedStream.duplex d) b start es = some s ∧
      bio.written s.backend = bio.written backend ++ all) ∧
    ∀ es s, Splice.run? (PeekedStream.duplex d) b start es = some s →
      s.failed = false ∧ ∃ es' t, Splice.run? (PeekedStream.duplex d) b s es' = some t ∧
        bio.written t.backend = bio.written backend ++ all

end

section

variable {a : Acceptor σ} {r : ρ} {hello : Hello} {p : PeekedStream ρ}
  (h : peek d.read a r = .hello hello p) {β : Type} {b : Duplex β} {backend : β}
  {es : List Splice.Event} {s : Splice (PeekedStream ρ) β}

include h

theorem forwarded_of_peek (io : d.Carries) (bio : b.Carries)
    (hrun : Splice.run? (PeekedStream.duplex d) b { client := p, backend } es = some s) :
    Forwarded io bio r backend s := by
  obtain ⟨hincoming, hwritten⟩ := carried_of_peek io h
  obtain ⟨received, sent, hs⟩ := Splice.passesOn_of_run (PeekedStream.carries io) bio p backend hrun
  have hup := hs.up
  have hclient := hs.toClient
  dsimp only at hup hclient
  rw [hincoming] at hup
  rw [hwritten] at hclient
  refine ⟨⟨received, sent, hs.toBackend, hclient, hup.whole, hs.down.whole⟩, fun t ht => ?_,
    fun hfailed hquiet => ⟨received, hs.toBackend, ?_⟩⟩
  · exact Splice.written_of_writeBackend bio ht
  · obtain ⟨hbuffer, hended | hpending⟩ := Splice.copied_of_quiet hfailed hquiet
    · exact .inl (hup.of_isDone (by simp [Copying.isDone, hended, hbuffer]))
    · -- A peeked stream is silent only after all that was kept has been read.
      obtain ⟨hkept, hsilent⟩ := silent_of_read hpending
      refine .inr ⟨?_, hsilent⟩
      rw [hup.whole, hbuffer, Octets.nil_then, PeekedStream.incoming_carries, hkept,
        Octets.nil_then]

/-- Where the splice is quiet between streams that do not fail, all has been received. -/
theorem received_of_quiet (io : d.Carries) (bio : b.Carries) {all : Octets}
    (hall : io.incoming r = Seq.ofList all)
    (hrun : Splice.run? (PeekedStream.duplex d) b { client := p, backend } es = some s)
    (hfailed : s.failed = false)
    (hquiet : ∀ e, e.isUp = true → Splice.step? (PeekedStream.duplex d) b s e = none)
    (hloud : (d.read Copying.room s.client.inner).1 ≠ .pending) :
    bio.written s.backend = bio.written backend ++ all := by
  obtain ⟨received, hreceived, hwhole | ⟨-, hsilent⟩⟩ :=
    (forwarded_of_peek h io bio hrun).quiet hfailed hquiet
  · rw [hall] at hwhole
    rw [hreceived, Seq.ofList_injective hwhole]
  · exact absurd hsilent hloud

theorem getsThrough_of_peek (io : d.Carries) (bio : b.Carries) {all : Octets}
    (hall : io.incoming r = Seq.ofList all) :
    GetsThrough d bio all r backend { client := p, backend } := by
  obtain ⟨hincoming, -⟩ := carried_of_peek io h
  rw [hall] at hincoming
  have hends : ∀ es s,
      Splice.run? (PeekedStream.duplex d) b { client := p, backend } es = some s →
      es.countP Splice.Event.isUp ≤ 2 * all.length + 2 ∧
      ∃ es' t, Splice.run? (PeekedStream.duplex d) b s es' = some t ∧
        ∀ e, e.isUp = true → Splice.step? (PeekedStream.duplex d) b t e = none := by
    intro es s hrun
    obtain ⟨left, hleft, hwork⟩ := Splice.work_of_run (PeekedStream.carries io) hrun hincoming
    refine ⟨?_, Splice.exists_quiet (PeekedStream.carries io) b s hleft⟩
    have hstart : ({ client := p, backend } : Splice (PeekedStream ρ) β).up.work all =
        2 * all.length + 2 := rfl
    omega
  refine ⟨hends, fun okr okb hd hb hr hbackend hloud => ?_⟩
  have hsound := fun {es} {s : Splice (PeekedStream ρ) β}
      (hrun : Splice.run? (PeekedStream.duplex d) b { client := p, backend } es = some s) =>
    Splice.Sound.run (PeekedStream.carries io) bio (PeekedStream.reliable hd) hb
      ⟨(reads_of_peekFrom (.done r) h).reliable hd hr, hbackend, rfl, rfl⟩ hrun
  have hfrom : ∀ es s,
      Splice.run? (PeekedStream.duplex d) b { client := p, backend } es = some s →
      ∃ es' t, Splice.run? (PeekedStream.duplex d) b s es' = some t ∧
        bio.written t.backend = bio.written backend ++ all := by
    intro es s hrun
    obtain ⟨-, es', t, hmore, hquiet⟩ := hends es s hrun
    have hboth := Splice.run?_append.mpr ⟨s, hrun, hmore⟩
    have ht := hsound hboth
    exact ⟨es', t, hmore, received_of_quiet h io bio hall hboth ht.failed hquiet
      (hloud _ _ ht.client)⟩
  exact ⟨hfrom [] _ rfl, fun es s hrun => ⟨(hsound hrun).failed, hfrom es s hrun⟩⟩

end

/-- **Peeking loses no octet.**  Let a stream be peeked at until an acceptor, whichever it is, knows
its hello.  What is read then, by reads of any sizes, is the stream from its first octet: each read
gives something unless the stream has ended, failed or is silent, and together they are all of it
when one has seen the end.  Writes go to the stream behind as they are.  And when the stream is
joined to a backend, then after any reads and writes in both directions the backend has received the
stream from its first octet, and the client has been sent what the backend sends; and if the stream
ends and neither side fails, the backend receives all of it, whatever was read and written before. -/
theorem nothing_lost_by_peek (io : d.Carries) {a : Acceptor σ} {r : ρ} {hello : Hello}
    {p : PeekedStream ρ} (h : peek d.read a r = .hello hello p) :
    (∀ sizes results p', (∀ size ∈ sizes, 0 < size) →
      readAll (PeekedStream.read d.read) sizes p = (results, p') →
      io.incoming r = (ReadResult.join results).then (p'.kept.then (io.incoming p'.inner)) ∧
      (.ended ∈ results → io.incoming r = Seq.ofList (ReadResult.join results)) ∧
      List.Forall₂ (fun size result => result.octets.length ≤ size ∧ result ≠ .data [])
        sizes results) ∧
    (io.written p.inner = io.written r ∧ ∀ bs (q : PeekedStream ρ),
      PeekedStream.write d.write bs q =
        ((d.write bs q.inner).1, ⟨q.kept, (d.write bs q.inner).2⟩)) ∧
    ∀ (β : Type) (b : Duplex β) (bio : b.Carries) (backend : β),
      (∀ es s, Splice.run? (PeekedStream.duplex d) b { client := p, backend } es = some s →
        Forwarded io bio r backend s) ∧
      ∀ all, io.incoming r = Seq.ofList all →
        GetsThrough d bio all r backend { client := p, backend } := by
  obtain ⟨hincoming, hwritten⟩ := carried_of_peek io h
  refine ⟨?_, ⟨hwritten, fun _ _ => rfl⟩, fun β b bio backend => ?_⟩
  · intro sizes results p' hsizes hread
    obtain ⟨rfl, rfl⟩ := Prod.mk.inj hread
    have hall := (PeekedStream.carries io).incoming_readAll sizes p
    rw [hincoming] at hall
    refine ⟨hall, fun hended => ?_, (PeekedStream.carries io).fits_readAll p hsizes⟩
    have hleft := (PeekedStream.carries io).ended_readAll hended
    rw [hall, hleft, Octets.then_nil]
    rfl
  · exact ⟨fun es s hrun => forwarded_of_peek h io bio hrun,
      fun all hall => getsThrough_of_peek h io bio hall⟩

/-- An acceptor for which any three octets are a hello. -/
def threeOctets : Acceptor Octets :=
  .ofFunction fun bs => if 3 ≤ bs.length then .hello ⟨some "b.example", []⟩ else .incomplete

/-- A stream in three pieces; the hello ends within the second. -/
def threePieces : ScriptedStream where
  segments := [.data [22, 3], .data [1, 7, 8], .data [9]]

def afterThree : PeekedStream ScriptedStream := ⟨[22, 3, 1, 7, 8], { segments := [.data [9]] }⟩

theorem peek_threePieces :
    peek ScriptedStream.read threeOctets threePieces =
      .hello ⟨some "b.example", []⟩ afterThree := by
  simp [peek, peekFrom, threeOctets, threePieces, afterThree, Acceptor.judge_ofFunction,
    ScriptedStream.read, ScriptedStream.readSegments, chunkSize, maxHello]

def answering : ScriptedStream where
  segments := [.data [5]]

/-- Some reads and writes of both. -/
def firstCopies : List Splice.Event :=
  [.readClient 3, .readBackend 8, .writeBackend, .writeClient, .readClient 1]

/-- The backend has received three octets then, and a fourth is in the buffer. -/
def midway : Splice (PeekedStream ScriptedStream) ScriptedStream where
  client := ⟨[8], { segments := [.data [9]], written := [5] }⟩
  backend := { segments := [], written := [22, 3, 1] }
  up := { buffer := [7] }

theorem threePieces_from_first_octet :
    peek ScriptedStream.read threeOctets threePieces =
      .hello ⟨some "b.example", []⟩ afterThree ∧
    (∀ size ∈ [2, 2, 2, 4, 4], 0 < size) ∧
    ScriptedStream.carries.incoming threePieces = Seq.ofList [22, 3, 1, 7, 8, 9] ∧
    readAll (PeekedStream.read ScriptedStream.read) [2, 2, 2, 4, 4] afterThree =
      ([.data [22, 3], .data [1, 7], .data [8], .data [9], .ended], ⟨[], { segments := [] }⟩) ∧
    Splice.run? (PeekedStream.duplex ScriptedStream.duplex) ScriptedStream.duplex
      { client := afterThree, backend := answering } firstCopies = some midway ∧
    ∃ es s, Splice.run? (PeekedStream.duplex ScriptedStream.duplex) ScriptedStream.duplex midway
      es = some s ∧ s.backend.written = [22, 3, 1, 7, 8, 9] := by
  have hsizes : ∀ size ∈ [2, 2, 2, 4, 4], 0 < size := by decide
  obtain ⟨hreads, -, hsplice⟩ := nothing_lost_by_peek ScriptedStream.carries peek_threePieces
  have hall := (hreads _ _ _ hsizes rfl).2.1 (by decide)
  obtain ⟨-, hthrough⟩ :=
    hsplice ScriptedStream ScriptedStream.duplex ScriptedStream.carries answering
  have hwhole := (hthrough [22, 3, 1, 7, 8, 9] hall).whole _ _ ScriptedStream.reliable
    ScriptedStream.reliable ⟨by decide, rfl⟩ ⟨by decide, rfl⟩ fun size _ hr => (hr.read size).2.1
  obtain ⟨-, hrest⟩ := hwhole.2 firstCopies midway rfl
  exact ⟨peek_threePieces, hsizes, hall, rfl, rfl, hrest⟩

end Tls

end Gatehouse
