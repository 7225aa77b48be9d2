import Gatehouse.Proofs.Stream.Carrying

/-!
# A splice passes everything on

Each direction of a splice keeps the order of its octets: what has been written, what is in the
buffer and what is still to be read make up what the source carried at the start.  Reads and writes
of the two directions may come in any order and take as much as they like.

    Copying.Passes          : what one direction has passed on
    Splice.Goes             : all that a read or a write can do
    Splice.PassesOn         : what both directions have passed on
    Splice.PassesOn.step    : a read or a write keeps it so
    Splice.passesOn_of_run  : after any reads and writes
    Splice.copied_of_quiet  : nothing stays behind when nothing more can be copied to the backend
-/

namespace Gatehouse

open Stream' (Seq)

variable {ρ β : Type} {c : Duplex ρ} {b : Duplex β}

namespace Copying

/-- Of a source that carried `all` at the start and carries `left` now, `passed` has been passed
on, and the buffer comes next. -/
structure Passes (k : Copying) (all : Seq UInt8) (passed : Octets) (left : Seq UInt8) : Prop where
  whole : all = passed.then (k.buffer.then left)
  ended : k.ended = true → left = .nil

theorem passes_new (all : Seq UInt8) : Passes {} all [] all where
  whole := by simp
  ended := nofun

theorem Passes.of_isDone {k : Copying} {all left : Seq UInt8} {passed : Octets}
    (h : k.Passes all passed left) (hdone : k.isDone = true) : all = Seq.ofList passed := by
  obtain ⟨hended, hbuffer⟩ := Bool.and_eq_true_iff.mp hdone
  rw [h.whole, h.ended hended, List.isEmpty_iff.mp hbuffer]
  simp

/-- **What a read does**: it fails, sees the end or puts something into the buffer. -/
theorem read?_cases (io : c.Carries) {k k' : Copying} {r r' : ρ} {size : Nat}
    (h : k.read? c.read size r = some (k', r')) :
    k.ended = false ∧ r' = (c.read size r).2 ∧
      ((c.read size r).1 = .failed ∧ k' = { k with failed := true } ∨
        (c.read size r).1 = .ended ∧ k' = { k with ended := true } ∨
        ∃ bs, bs ≠ [] ∧ (c.read size r).1 = .data bs ∧
          k' = { k with buffer := k.buffer ++ bs }) := by
  obtain ⟨hopen, hread⟩ := Option.ite_none_left_eq_some.mp h
  simp only [Bool.not_eq_true, Bool.or_eq_false_iff, decide_eq_false_iff_not] at hopen
  obtain ⟨⟨hended, hsize⟩, -⟩ := hopen
  cases hresult : c.read size r with
  | mk result r₁ =>
    rw [hresult] at hread
    cases result with
    | pending => cases hread
    | failed =>
      cases hread
      exact ⟨hended, rfl, .inl ⟨rfl, rfl⟩⟩
    | ended =>
      cases hread
      exact ⟨hended, rfl, .inr (.inl ⟨rfl, rfl⟩)⟩
    | data bs =>
      cases hread
      -- The buffer has room, so that a read without octets would be the end.
      have hbs : bs ≠ [] := by
        rintro rfl
        exact io.some_read size r (Nat.pos_of_ne_zero hsize) (by rw [hresult])
      refine ⟨hended, rfl, .inr (.inr ⟨bs, hbs, rfl, ?_⟩)⟩
      simp [hended, hbs]

/-- **What a write does**: it passes on the first octets of the buffer, or fails because nothing is
taken. -/
theorem write?_cases {k k' : Copying} {x x' : β} (h : k.write? b.write x = some (k', x')) :
    k.buffer ≠ [] ∧ x' = (b.write k.buffer x).2 ∧
      ((b.write k.buffer x).1.getD 0 = 0 ∧ k' = { k with failed := true } ∨
        ∃ n, (b.write k.buffer x).1 = some (n + 1) ∧
          k' = { k with buffer := k.buffer.drop (n + 1) }) := by
  obtain ⟨hempty, hwrite⟩ := Option.ite_none_left_eq_some.mp h
  refine ⟨by simpa using hempty, ?_⟩
  cases hresult : b.write k.buffer x with
  | mk taken x₁ =>
    rw [hresult] at hwrite
    rcases taken with - | - | n
    · cases hwrite
      exact ⟨rfl, .inl ⟨rfl, rfl⟩⟩
    · cases hwrite
      exact ⟨rfl, .inl ⟨rfl, rfl⟩⟩
    · cases hwrite
      exact ⟨rfl, .inr ⟨n, rfl, rfl⟩⟩

/-- A read moves octets from the source to the buffer. -/
theorem Passes.read {k k' : Copying} {r r' : ρ} {size : Nat} {all : Seq UInt8} {passed : Octets}
    (io : c.Carries) (h : k.read? c.read size r = some (k', r'))
    (hk : k.Passes all passed (io.incoming r)) : k'.Passes all passed (io.incoming r') := by
  obtain ⟨hopen, rfl, hresult⟩ := read?_cases io h
  have hoff := io.incoming_read size r
  obtain ⟨hresult, rfl⟩ | ⟨hresult, rfl⟩ | ⟨bs, -, hresult, rfl⟩ := hresult
  · simp only [hresult, ReadResult.octets, Octets.nil_then] at hoff
    rw [hoff] at hk
    exact ⟨hk.whole, hk.ended⟩
  · have hnil : io.incoming r = .nil := io.ended size r hresult
    rw [hnil] at hoff
    obtain ⟨-, hleft⟩ := Octets.eq_nil_of_then_eq_nil hoff.symm
    refine ⟨?_, fun _ => hleft⟩
    rw [hleft, hk.whole, hnil]
  · rw [hresult, ReadResult.octets] at hoff
    refine ⟨?_, fun hended => absurd hended (by simp [hopen])⟩
    rw [hk.whole, hoff, Octets.append_then]

theorem written_of_read? {k k' : Copying} {r r' : ρ} {size : Nat} (io : c.Carries)
    (h : k.read? c.read size r = some (k', r')) : io.written r' = io.written r := by
  obtain ⟨-, rfl, -⟩ := read?_cases io h
  exact io.written_read size r

/-- What a write passes on are the first octets of the buffer. -/
theorem write?_eq_some {k k' : Copying} {x x' : β} (io : b.Carries)
    (h : k.write? b.write x = some (k', x')) :
    ∃ more, k.buffer = more ++ k'.buffer ∧ k'.ended = k.ended ∧
      io.written x' = io.written x ++ more ∧ io.incoming x' = io.incoming x ∧
      (more = [] → k'.failed = true ∧ (b.write k.buffer x).1.getD 0 = 0) := by
  obtain ⟨hbuffer, rfl, hresult⟩ := write?_cases h
  refine ⟨k.buffer.take ((b.write k.buffer x).1.getD 0), ?_, ?_, io.written_write k.buffer x,
    io.incoming_write k.buffer x, ?_⟩
  all_goals obtain ⟨hresult, rfl⟩ | ⟨n, hresult, rfl⟩ := hresult
  · rw [hresult]
    rfl
  · rw [hresult]
    exact (List.take_append_drop ..).symm
  · rfl
  · rfl
  · exact fun _ => ⟨rfl, hresult⟩
  · intro hnone
    rw [hresult] at hnone
    exact absurd hnone (by simp [hbuffer])

theorem Passes.write {k k' : Copying} {all left : Seq UInt8} {passed more : Octets}
    (hk : k.Passes all passed left) (hbuffer : k.buffer = more ++ k'.buffer)
    (hended : k'.ended = k.ended) : k'.Passes all (passed ++ more) left where
  whole := by rw [hk.whole, hbuffer, Octets.append_then, Octets.append_then]
  ended h := hk.ended (hended ▸ h)

theorem buffer_of_write?_eq_none {k : Copying} {x : β} (h : k.write? b.write x = none) :
    k.buffer = [] := by
  by_contra hbuffer
  have hempty : ¬k.buffer.isEmpty = true := by simpa using hbuffer
  rw [write?, if_neg hempty] at h
  split at h <;> cases h

/-- A source that cannot be read although there is room has ended or is silent. -/
theorem ended_or_pending_of_read?_eq_none {k : Copying} {r : ρ} (hbuffer : k.buffer = [])
    (h : k.read? c.read room r = none) : k.ended = true ∨ (c.read room r).1 = .pending := by
  by_cases hended : k.ended = true
  · exact .inl hended
  · have hopen :
        ¬(k.ended || decide (room = 0) || decide (room < k.buffer.length + room)) = true := by
      simp [hended, hbuffer, room]
    rw [read?, if_neg hopen] at h
    split at h
    · next hresult => exact .inr (by rw [hresult])
    all_goals cases h

end Copying

namespace Splice

/-- A read or a write: one direction goes on, and the stream that it reads or writes. -/
inductive Goes (c : Duplex ρ) (b : Duplex β) (s : Splice ρ β) : Event → Splice ρ β → Prop where
  | readClient {size : Nat} {up : Copying} {client : ρ}
      (h : s.up.read? c.read size s.client = some (up, client)) :
      Goes c b s (.readClient size) { s with up, client }
  | writeBackend {up : Copying} {backend : β}
      (h : s.up.write? b.write s.backend = some (up, backend)) :
      Goes c b s .writeBackend { s with up, backend }
  | readBackend {size : Nat} {down : Copying} {backend : β}
      (h : s.down.read? b.read size s.backend = some (down, backend)) :
      Goes c b s (.readBackend size) { s with down, backend }
  | writeClient {down : Copying} {client : ρ}
      (h : s.down.write? c.write s.client = some (down, client)) :
      Goes c b s .writeClient { s with down, client }

/-- A step goes on in one direction, and there is none after a failure. -/
theorem goes_of_step? {s t : Splice ρ β} {e : Event} (h : step? c b s e = some t) :
    s.failed = false ∧ Goes c b s e t := by
  obtain ⟨hfailed, h⟩ := Option.ite_none_left_eq_some.mp h
  refine ⟨by simpa using hfailed, ?_⟩
  cases e
  all_goals obtain ⟨⟨k, x⟩, hgo, rfl⟩ := Option.map_eq_some_iff.mp h
  · exact .readClient hgo
  · exact .writeBackend hgo
  · exact .readBackend hgo
  · exact .writeClient hgo

/-- What every step keeps, a run keeps. -/
theorem run?_keeps {P : Splice ρ β → Prop} {s t : Splice ρ β} {es : List Event}
    (hstep : ∀ s e t, P s → step? c b s e = some t → P t) (hs : P s)
    (h : run? c b s es = some t) : P t := by
  induction es generalizing s with
  | nil =>
    cases h
    exact hs
  | cons e es ih =>
    obtain ⟨m, hfirst, hrest⟩ := Option.bind_eq_some_iff.mp h
    exact ih (hstep s e m hs hfirst) hrest

/-- What has come of a splice that began in `s₀`: the backend has received the first octets of the
client, and the client was sent the first of the backend. -/
structure PassesOn (cio : c.Carries) (bio : b.Carries) (s₀ s : Splice ρ β)
    (received sent : Octets) : Prop where
  toBackend : bio.written s.backend = bio.written s₀.backend ++ received
  toClient : cio.written s.client = cio.written s₀.client ++ sent
  up : s.up.Passes (cio.incoming s₀.client) received (cio.incoming s.client)
  down : s.down.Passes (bio.incoming s₀.backend) sent (bio.incoming s.backend)

variable {cio : c.Carries} {bio : b.Carries} {s₀ s t : Splice ρ β} {received sent : Octets}

theorem run?_append {es es' : List Event} :
    run? c b s (es ++ es') = some t ↔ ∃ m, run? c b s es = some m ∧ run? c b m es' = some t := by
  unfold run?
  rw [List.foldlM_append]
  exact Option.bind_eq_some_iff

/-- What a splice has passed on stays so, and a write adds to it. -/
theorem PassesOn.step {e : Event} (h : step? c b s e = some t)
    (hs : PassesOn cio bio s₀ s received sent) :
    ∃ received' sent', PassesOn cio bio s₀ t received' sent' := by
  obtain ⟨-, hgoes⟩ := goes_of_step? h
  cases hgoes with
  | readClient hread =>
    exact ⟨received, sent, hs.toBackend, (Copying.written_of_read? cio hread).trans hs.toClient,
      hs.up.read cio hread, hs.down⟩
  | writeBackend hwrite =>
    obtain ⟨more, hbuffer, hended, hwritten, hincoming, -⟩ := Copying.write?_eq_some bio hwrite
    refine ⟨received ++ more, sent, ?_, hs.toClient, hs.up.write hbuffer hended, ?_⟩
    · rw [hwritten, hs.toBackend, List.append_assoc]
    · rw [hincoming]
      exact hs.down
  | readBackend hread =>
    exact ⟨received, sent, (Copying.written_of_read? bio hread).trans hs.toBackend, hs.toClient,
      hs.up, hs.down.read bio hread⟩
  | writeClient hwrite =>
    obtain ⟨more, hbuffer, hended, hwritten, hincoming, -⟩ := Copying.write?_eq_some cio hwrite
    refine ⟨received, sent ++ more, hs.toBackend, ?_, ?_, hs.down.write hbuffer hended⟩
    · rw [hwritten, hs.toClient, List.append_assoc]
    · rw [hincoming]
      exact hs.up

/-- After any reads and writes the backend has received the first octets of the client, and the
other way round. -/
theorem passesOn_of_run (cio : c.Carries) (bio : b.Carries) {es : List Event} (client : ρ)
    (backend : β) (h : run? c b { client, backend } es = some t) :
    ∃ received sent, PassesOn cio bio { client, backend } t received sent := by
  refine run?_keeps
    (P := fun s => ∃ received sent, PassesOn cio bio { client, backend } s received sent)
    (fun s e t ⟨received, sent, hs⟩ hstep => hs.step hstep) ⟨[], [], ?_⟩ h
  exact ⟨(List.append_nil _).symm, (List.append_nil _).symm, Copying.passes_new _,
    Copying.passes_new _⟩

/-- A write to the backend passes on one octet at least, unless the backend takes none. -/
theorem written_of_writeBackend (bio : b.Carries) (h : step? c b s .writeBackend = some t) :
    ∃ more, bio.written t.backend = bio.written s.backend ++ more ∧
      (more = [] → t.failed = true ∧ (b.write s.up.buffer s.backend).1.getD 0 = 0) := by
  obtain ⟨-, hgoes⟩ := goes_of_step? h
  cases hgoes with
  | writeBackend hwrite =>
    obtain ⟨more, -, -, hwritten, -, hnone⟩ := Copying.write?_eq_some bio hwrite
    refine ⟨more, hwritten, fun hempty => ?_⟩
    obtain ⟨hfailed, htaken⟩ := hnone hempty
    exact ⟨Bool.or_eq_true_iff.mpr (.inl hfailed), htaken⟩

/-- Whether it is on the way from the client to the backend. -/
def Event.isUp : Event → Bool
  | .readClient _ | .writeBackend => true
  | .readBackend _ | .writeClient => false

/-- When nothing more can be copied to the backend and nothing has failed, the buffer is empty and
the client has ended or is silent. -/
theorem copied_of_quiet (hfailed : s.failed = false)
    (hquiet : ∀ e, e.isUp = true → step? c b s e = none) :
    s.up.buffer = [] ∧ (s.up.ended = true ∨ (c.read Copying.room s.client).1 = .pending) := by
  simp only [step?, hfailed, Bool.false_eq_true, if_false] at hquiet
  have hbuffer : s.up.buffer = [] :=
    Copying.buffer_of_write?_eq_none (Option.map_eq_none_iff.mp (hquiet .writeBackend rfl))
  exact ⟨hbuffer, Copying.ended_or_pending_of_read?_eq_none hbuffer
    (Option.map_eq_none_iff.mp (hquiet (.readClient Copying.room) rfl))⟩

end Splice

end Gatehouse
