import Gatehouse.Proofs.Stream.Splicing

/-!
# A splice does not stop before all is passed on

What is copied to the backend, each read takes from what is left of the client and each write takes
from the buffer, so that a client with finitely many octets allows finitely many of them, however
the other direction goes on.  A splice that makes as many as it can has passed everything on, unless
it failed; and it fails only because one of the two streams does.

    Copying.work            : how many reads and writes are left
    Splice.work_of_run      : each one that is made is one less
    Splice.exists_quiet     : after some more of them there are none
    Duplex.Reliable         : streams that never fail
    Splice.Sound.run        : between two of these nothing fails
    ScriptedStream.reliable : scripted streams without failures are such streams
-/

namespace Gatehouse

open Stream' (Seq)

namespace Octets

/-- What follows some octets in a finite stream is finite. -/
theorem eq_append_of_then_eq_ofList {bs all : Octets} {rest : Seq UInt8}
    (h : bs.then rest = Seq.ofList all) : ∃ left, rest = Seq.ofList left ∧ all = bs ++ left := by
  induction bs generalizing all with
  | nil => exact ⟨all, (nil_then rest).symm.trans h, rfl⟩
  | cons b bs ih =>
    cases all with
    | nil => exact absurd (eq_nil_of_then_eq_nil h).1 (List.cons_ne_nil b bs)
    | cons a all =>
      rw [Octets.then, Seq.ofList_cons, Seq.cons_append, Seq.ofList_cons, Seq.cons_eq_cons] at h
      obtain ⟨left, hrest, rfl⟩ := ih h.2
      exact ⟨left, hrest, by rw [h.1, List.cons_append]⟩

end Octets

variable {ρ β : Type} {c : Duplex ρ} {b : Duplex β}

namespace Copying

/-- How many reads and writes a direction can still make if its source carries `left`. -/
def work (k : Copying) (left : Octets) : Nat :=
  2 * left.length + k.buffer.length + (if k.ended then 0 else 1) + if k.failed then 0 else 1

/-- Each octet is read once and written once; so an octet that is read is one less to read. -/
theorem work_read {k k' : Copying} {r r' : ρ} {size : Nat} {left : Octets} (io : c.Carries)
    (h : k.read? c.read size r = some (k', r')) (hfailed : k.failed = false)
    (hleft : io.incoming r = Seq.ofList left) :
    ∃ left', io.incoming r' = Seq.ofList left' ∧ k'.work left' + 1 ≤ k.work left := by
  obtain ⟨hopen, rfl, hresult⟩ := read?_cases io h
  have hoff := io.incoming_read size r
  rw [hleft] at hoff
  obtain ⟨left', hleft', rfl⟩ := Octets.eq_append_of_then_eq_ofList hoff.symm
  refine ⟨left', hleft', ?_⟩
  obtain ⟨-, rfl⟩ | ⟨-, rfl⟩ | ⟨bs, hbs, hresult, rfl⟩ := hresult
  · simp [work, hopen, hfailed]
  · simp [work, hopen, hfailed]
  · have hpos : 0 < bs.length := List.length_pos_iff.mpr hbs
    simp only [work, hopen, hfailed, hresult, ReadResult.octets, List.length_append]
    omega

/-- An octet that is written is one less to write. -/
theorem work_write {k k' : Copying} {x x' : β} (h : k.write? b.write x = some (k', x'))
    (hfailed : k.failed = false) (left : Octets) : k'.work left + 1 ≤ k.work left := by
  obtain ⟨hbuffer, -, ⟨-, rfl⟩ | ⟨n, -, rfl⟩⟩ := write?_cases h
  · simp [work, hfailed]
  · have hpos : 0 < k.buffer.length := List.length_pos_iff.mpr hbuffer
    simp only [work, List.length_drop]
    omega

end Copying

namespace Splice

variable {s t : Splice ρ β} {e : Event} {es : List Event} {left : Octets}

/-- What is done on the way to the backend leaves less to do there, and nothing adds to it. -/
theorem work_of_step (cio : c.Carries) (h : step? c b s e = some t)
    (hleft : cio.incoming s.client = Seq.ofList left) :
    ∃ left', cio.incoming t.client = Seq.ofList left' ∧
      t.up.work left' + (if e.isUp then 1 else 0) ≤ s.up.work left := by
  obtain ⟨hfailed, hgoes⟩ := goes_of_step? h
  have hup : s.up.failed = false := (Bool.or_eq_false_iff.mp hfailed).1
  cases hgoes with
  | readClient hread => exact Copying.work_read cio hread hup hleft
  | writeBackend hwrite => exact ⟨left, hleft, Copying.work_write hwrite hup left⟩
  | readBackend => exact ⟨left, hleft, Nat.le_refl _⟩
  | writeClient hwrite =>
    obtain ⟨-, -, -, -, hincoming, -⟩ := Copying.write?_eq_some cio hwrite
    exact ⟨left, hincoming.trans hleft, Nat.le_refl _⟩

/-- Each read and write on the way to the backend is one less to make. -/
theorem work_of_run (cio : c.Carries) (h : run? c b s es = some t)
    (hleft : cio.incoming s.client = Seq.ofList left) :
    ∃ left', cio.incoming t.client = Seq.ofList left' ∧
      t.up.work left' + es.countP Event.isUp ≤ s.up.work left := by
  induction es generalizing s left with
  | nil =>
    cases h
    exact ⟨left, hleft, Nat.le_refl _⟩
  | cons e es ih =>
    obtain ⟨m, hstep, hrest⟩ := Option.bind_eq_some_iff.mp h
    obtain ⟨left₁, hleft₁, hfirst⟩ := work_of_step cio hstep hleft
    obtain ⟨left₂, hleft₂, hlater⟩ := ih hrest hleft₁
    refine ⟨left₂, hleft₂, ?_⟩
    rw [List.countP_cons]
    omega

/-- After some reads and writes on the way to the backend there are none that can be made. -/
theorem exists_quiet (cio : c.Carries) (b : Duplex β) (s : Splice ρ β)
    (hleft : cio.incoming s.client = Seq.ofList left) :
    ∃ es t, run? c b s es = some t ∧ ∀ e, e.isUp = true → step? c b t e = none := by
  induction hwork : s.up.work left using Nat.strong_induction_on generalizing s left with
  | _ n ih =>
    by_cases hquiet : ∀ e, e.isUp = true → step? c b s e = none
    · exact ⟨[], s, rfl, hquiet⟩
    · push Not at hquiet
      obtain ⟨e, hup, hstep⟩ := hquiet
      obtain ⟨m, hm⟩ := Option.ne_none_iff_exists'.mp hstep
      obtain ⟨left₁, hleft₁, hless⟩ := work_of_step cio hm hleft
      rw [if_pos hup] at hless
      obtain ⟨es, t, hrun, hquiet⟩ := ih _ (by omega) m hleft₁ rfl
      exact ⟨e :: es, t, Option.bind_eq_some_iff.mpr ⟨m, hm, hrun⟩, hquiet⟩

end Splice

/-! ## Streams that never fail -/

/-- In a state that is `ok` a stream does not fail, neither in reads nor in writes, and it stays in
such states. -/
structure Duplex.Reliable (d : Duplex ρ) (ok : ρ → Prop) : Prop where
  read : ∀ size r, ok r → (d.read size r).1 ≠ .failed ∧ ok (d.read size r).2
  write : ∀ bs r, ok r → (bs ≠ [] → (d.write bs r).1.getD 0 ≠ 0) ∧ ok (d.write bs r).2

namespace Copying

variable {ok : ρ → Prop} {k k' : Copying}

theorem sound_of_read (io : c.Carries) (hc : c.Reliable ok) {r r' : ρ} {size : Nat}
    (h : k.read? c.read size r = some (k', r')) (hr : ok r) (hfailed : k.failed = false) :
    k'.failed = false ∧ ok r' := by
  obtain ⟨hnot, hok⟩ := hc.read size r hr
  obtain ⟨-, rfl, ⟨hresult, -⟩ | ⟨-, rfl⟩ | ⟨bs, -, -, rfl⟩⟩ := read?_cases io h
  · exact absurd hresult hnot
  · exact ⟨hfailed, hok⟩
  · exact ⟨hfailed, hok⟩

theorem sound_of_write (hc : c.Reliable ok) {r r' : ρ}
    (h : k.write? c.write r = some (k', r')) (hr : ok r) (hfailed : k.failed = false) :
    k'.failed = false ∧ ok r' := by
  obtain ⟨htakes, hok⟩ := hc.write k.buffer r hr
  obtain ⟨hbuffer, rfl, ⟨hnone, -⟩ | ⟨n, -, rfl⟩⟩ := write?_cases h
  · exact absurd hnone (htakes hbuffer)
  · exact ⟨hfailed, hok⟩

end Copying

namespace Splice

/-- Nothing has failed, and neither stream will. -/
structure Sound (okc : ρ → Prop) (okb : β → Prop) (s : Splice ρ β) : Prop where
  client : okc s.client
  backend : okb s.backend
  up : s.up.failed = false
  down : s.down.failed = false

variable {okc : ρ → Prop} {okb : β → Prop} {s t : Splice ρ β} {e : Event} {es : List Event}

theorem Sound.failed (h : s.Sound okc okb) : s.failed = false :=
  Bool.or_eq_false_iff.mpr ⟨h.up, h.down⟩

theorem Sound.step (cio : c.Carries) (bio : b.Carries) (hc : c.Reliable okc)
    (hb : b.Reliable okb) (hs : s.Sound okc okb) (h : step? c b s e = some t) :
    t.Sound okc okb := by
  obtain ⟨-, hgoes⟩ := goes_of_step? h
  cases hgoes with
  | readClient hread =>
    obtain ⟨hup, hclient⟩ := Copying.sound_of_read cio hc hread hs.client hs.up
    exact { hs with client := hclient, up := hup }
  | writeBackend hwrite =>
    obtain ⟨hup, hbackend⟩ := Copying.sound_of_write hb hwrite hs.backend hs.up
    exact { hs with backend := hbackend, up := hup }
  | readBackend hread =>
    obtain ⟨hdown, hbackend⟩ := Copying.sound_of_read bio hb hread hs.backend hs.down
    exact { hs with backend := hbackend, down := hdown }
  | writeClient hwrite =>
    obtain ⟨hdown, hclient⟩ := Copying.sound_of_write hc hwrite hs.client hs.down
    exact { hs with client := hclient, down := hdown }

/-- Between streams that never fail nothing fails. -/
theorem Sound.run (cio : c.Carries) (bio : b.Carries) (hc : c.Reliable okc)
    (hb : b.Reliable okb) (hs : s.Sound okc okb) (h : run? c b s es = some t) :
    t.Sound okc okb :=
  run?_keeps (fun _ _ _ hs hstep => hs.step cio bio hc hb hstep) hs h

end Splice

namespace ScriptedStream

/-- Nothing in the script fails, and the stream ends after it. -/
def IsWhole (s : ScriptedStream) : Prop := .failure ∉ s.segments ∧ s.hangs = false

theorem readSegments_of_isWhole {size : Nat} {gs gs' : List Segment} {result : ReadResult}
    (hgs : .failure ∉ gs) (h : readSegments false size gs = (result, gs')) :
    result ≠ .failed ∧ result ≠ .pending ∧ .failure ∉ gs' := by
  fun_induction readSegments false size gs with
  | case1 =>
    obtain ⟨rfl, rfl⟩ := Prod.mk.inj h
    exact ⟨by simp, by simp, hgs⟩
  | case2 gs => exact absurd List.mem_cons_self hgs
  | case3 bs gs _ ih => exact ih (fun hmem => hgs (List.mem_cons_of_mem _ hmem)) h
  | case4 bs gs hempty left =>
    obtain ⟨rfl, rfl⟩ := Prod.mk.inj h
    refine ⟨by simp, by simp, ?_⟩
    split
    · exact fun hmem => hgs (List.mem_cons_of_mem _ hmem)
    · simpa using hgs

theorem IsWhole.read {s : ScriptedStream} (h : s.IsWhole) (size : Nat) :
    (duplex.read size s).1 ≠ .failed ∧ (duplex.read size s).1 ≠ .pending ∧
      (duplex.read size s).2.IsWhole := by
  obtain ⟨segments, hangs, written⟩ := s
  obtain ⟨hgs, rfl⟩ := h
  obtain ⟨hfailed, hpending, hleft⟩ := readSegments_of_isWhole hgs (Prod.eta _).symm
  exact ⟨hfailed, hpending, hleft, rfl⟩

theorem reliable : duplex.Reliable IsWhole where
  read size s hs := ⟨(hs.read size).1, (hs.read size).2.2⟩
  write bs s hs := ⟨fun hbs => by simpa [duplex, write] using hbs, hs⟩

end ScriptedStream
end Gatehouse
