import Gatehouse.Proofs.Stream.Carrying
import Gatehouse.Tls.Peek

/-!
# Peeking always stops

The peer of a connection may send without end, in pieces as small as it likes.  Peeking is taken
apart here into single steps: a read, a portion for the acceptor, a question to it.  Each octet
pays for three of them at most, and no more octets are kept than the limit allows; so the steps come
to an end, and this without any bound on the stream.

    Peeking           : where peeking stands
    Peeking.next      : one step
    Peeking.left_next : each step uses up one of those that are left
    result_peeking    : no step changes what will come of peeking
    sound_peeking     : what is kept, and what was read
    peeking_stops     : peeking ends, within its limits, and when it is too large
-/

namespace Gatehouse

variable {ρ σ : Type}

/-- One read more after some others. -/
theorem readAll_concat (read : ReadFrom ρ) (sizes : List Nat) (size : Nat) (r : ρ) :
    readAll read (sizes ++ [size]) r =
      ((readAll read sizes r).1 ++ [(read size (readAll read sizes r).2).1],
        (read size (readAll read sizes r).2).2) := by
  induction sizes generalizing r with
  | nil => rfl
  | cons first sizes ih =>
    simp only [List.cons_append, readAll, ih]

namespace Tls

/-! ## Specification -/

/-- The first reads of a stream, so many of them, and the stream after them. -/
def firstReads (read : ReadFrom ρ) (r : ρ) (reads : Nat) : List ReadResult × ρ :=
  readAll read (List.replicate reads chunkSize) r

/-- The octets that the first reads of a stream give. -/
def given (read : ReadFrom ρ) (r : ρ) (reads : Nat) : Octets :=
  ReadResult.join (firstReads read r reads).1

/-- What is done next. -/
inductive Stage (ρ : Type) where
  /-- To read a piece. -/
  | reading
  /-- To feed the rest of the last piece to the acceptor, and then to ask it. -/
  | feeding (unfed : Octets)
  /-- Nothing. -/
  | done (result : Peeked ρ)

/-- Where peeking stands. -/
structure Peeking (ρ σ : Type) where
  stream : ρ
  acceptor : σ
  kept : Octets := []
  /-- How many reads were made. -/
  reads : Nat := 0
  stage : Stage ρ := .reading

namespace Peeking

/-- What becomes of the octets of a read: they are kept, unless they are too many. -/
def keep (p : Peeking ρ σ) (piece : Octets) : Peeking ρ σ :=
  if maxHello < p.kept.length + piece.length then { p with stage := .done (.failed .tooLarge) }
  else { p with kept := p.kept ++ piece, stage := .feeding piece }

/-- What becomes of a read. -/
def receive (p : Peeking ρ σ) : ReadResult → Peeking ρ σ
  | .pending => { p with stage := .done .pending }
  | .failed => { p with stage := .done (.failed .io) }
  | .ended => { p with stage := .done (.failed .ended) }
  | .data [] => { p with stage := .done (.failed .ended) }
  | .data (b :: bs) => p.keep (b :: bs)

/-- What becomes of a judgement. -/
def heed (p : Peeking ρ σ) : Judgement σ → Peeking ρ σ
  | .hello hello => { p with stage := .done (.hello hello ⟨p.kept, p.stream⟩) }
  | .invalid => { p with stage := .done (.failed .invalid) }
  | .more s => { p with acceptor := s, stage := .reading }

/-- One step: a read, a portion for the acceptor, or a question to it. -/
def next (read : ReadFrom ρ) (a : Acceptor σ) (p : Peeking ρ σ) : Peeking ρ σ :=
  match p.stage with
  | .reading =>
    { p with stream := (read chunkSize p.stream).2, reads := p.reads + 1 }.receive
      (read chunkSize p.stream).1
  | .feeding [] => p.heed (a.judge p.acceptor)
  | .feeding (b :: bs) =>
    match a.take p.acceptor b bs with
    | none => { p with stage := .done (.failed .io) }
    | some (s, others) => { p with acceptor := s, stage := .feeding (bs.drop others) }
  | .done _ => p

end Peeking

/-- Where peeking stands after so many steps. -/
def peeking (read : ReadFrom ρ) (a : Acceptor σ) (r : ρ) : (steps : Nat) → Peeking ρ σ
  | 0 => { stream := r, acceptor := a.init }
  | steps + 1 => (peeking read a r steps).next read a

variable {read : ReadFrom ρ} {a : Acceptor σ} {r : ρ}

theorem firstReads_succ (read : ReadFrom ρ) (r : ρ) (reads : Nat) :
    firstReads read r (reads + 1) =
      ((firstReads read r reads).1 ++ [(read chunkSize (firstReads read r reads).2).1],
        (read chunkSize (firstReads read r reads).2).2) := by
  rw [firstReads, List.replicate_succ', readAll_concat]
  rfl

theorem given_succ (read : ReadFrom ρ) (r : ρ) (reads : Nat) :
    given read r (reads + 1) =
      given read r reads ++ (read chunkSize (firstReads read r reads).2).1.octets := by
  rw [given, firstReads_succ, ReadResult.join, List.flatMap_append, List.flatMap_singleton]
  rfl

/-! ## What will come of it -/

namespace Peeking

def result (read : ReadFrom ρ) (a : Acceptor σ) (p : Peeking ρ σ) : Peeked ρ :=
  match p.stage with
  | .reading => peekFrom read a (fun _ => chunkSize) p.kept p.acceptor p.stream
  | .feeding unfed =>
    match a.feed p.acceptor unfed with
    | none => .failed .io
    | some s =>
      match a.judge s with
      | .hello hello => .hello hello ⟨p.kept, p.stream⟩
      | .invalid => .failed .invalid
      | .more s => peekFrom read a (fun _ => chunkSize) p.kept s p.stream
  | .done result => result

theorem result_of_done {p : Peeking ρ σ} {result : Peeked ρ} (h : p.stage = .done result) :
    p.result read a = result := by
  rw [Peeking.result, h]

/-- Reading on is to make a read and then what follows from it. -/
theorem peekFrom_eq_result (p : Peeking ρ σ) (reads : Nat) :
    peekFrom read a (fun _ => chunkSize) p.kept p.acceptor p.stream =
      ({ p with stream := (read chunkSize p.stream).2, reads }.receive
        (read chunkSize p.stream).1).result read a := by
  rw [peekFrom, if_neg (by decide)]
  cases hread : read chunkSize p.stream with
  | mk result stream =>
    cases result with
    | pending => rfl
    | failed => rfl
    | ended => rfl
    | data bs =>
      cases bs with
      | nil => rfl
      | cons b bs =>
        dsimp only [receive, keep]
        by_cases hlimit : maxHello < p.kept.length + (b :: bs).length
        · rw [dif_pos hlimit, if_pos hlimit]
          rfl
        · rw [dif_neg hlimit, if_neg hlimit]
          rfl

/-- No step changes what will come of it. -/
theorem result_next (p : Peeking ρ σ) : (p.next read a).result read a = p.result read a := by
  obtain ⟨stream, acceptor, kept, reads, stage⟩ := p
  cases stage with
  | reading => exact (peekFrom_eq_result ⟨stream, acceptor, kept, reads, .reading⟩ _).symm
  | done result => rfl
  | feeding unfed =>
    cases unfed with
    | nil =>
      simp only [next, result, Acceptor.feed]
      cases a.judge acceptor <;> rfl
    | cons b bs =>
      simp only [next, result, Acceptor.feed]
      cases a.take acceptor b bs <;> rfl

end Peeking

theorem result_peeking (steps : Nat) :
    (peeking read a r steps).result read a = peek read a r := by
  induction steps with
  | zero => rfl
  | succ steps ih => exact (Peeking.result_next _).trans ih

/-! ## How many steps are left -/

namespace Peeking

/-- The most steps that are left: three for each octet that may still be kept, one for each octet
that is still to be fed. -/
def left (p : Peeking ρ σ) : Nat :=
  match p.stage with
  | .reading => 3 * (maxHello - p.kept.length) + 1
  | .feeding unfed => 3 * (maxHello - p.kept.length) + unfed.length + 2
  | .done _ => 0

theorem exists_done_of_left {p : Peeking ρ σ} (h : p.left = 0) :
    ∃ result, p.stage = .done result := by
  cases hstage : p.stage with
  | reading => simp [left, hstage] at h
  | feeding unfed => simp [left, hstage] at h
  | done result => exact ⟨result, rfl⟩

/-- A read leaves fewer steps, since it gives one octet at least or is the last. -/
theorem left_receive (p : Peeking ρ σ) (result : ReadResult) :
    (p.receive result).left ≤ 3 * (maxHello - p.kept.length) := by
  cases result with
  | pending => exact Nat.zero_le _
  | failed => exact Nat.zero_le _
  | ended => exact Nat.zero_le _
  | data bs =>
    cases bs with
    | nil => exact Nat.zero_le _
    | cons b bs =>
      rw [receive, keep]
      split
      · exact Nat.zero_le _
      · next hlimit =>
        simp only [left, List.length_append, List.length_cons] at hlimit ⊢
        omega

/-- **Each step uses up one of those that are left.** -/
theorem left_next (p : Peeking ρ σ) : (p.next read a).left ≤ p.left - 1 := by
  obtain ⟨stream, acceptor, kept, reads, stage⟩ := p
  cases stage with
  | reading => exact left_receive _ _
  | done result => exact Nat.zero_le _
  | feeding unfed =>
    cases unfed with
    | nil =>
      simp only [next]
      cases a.judge acceptor with
      | hello hello => exact Nat.zero_le _
      | invalid => exact Nat.zero_le _
      | more s => exact Nat.le_refl _
    | cons b bs =>
      simp only [next]
      cases a.take acceptor b bs with
      | none => exact Nat.zero_le _
      | some taken =>
        -- The acceptor has taken the first octet at least.
        simp only [left, List.length_drop, List.length_cons]
        omega

end Peeking

theorem left_peeking (steps : Nat) :
    (peeking read a r steps).left ≤ 3 * maxHello + 1 - steps := by
  induction steps with
  | zero => exact Nat.le_refl _
  | succ steps ih =>
    calc (peeking read a r (steps + 1)).left
      _ ≤ (peeking read a r steps).left - 1 := (peeking read a r steps).left_next
      _ ≤ 3 * maxHello + 1 - (steps + 1) := Nat.sub_le_sub_right ih 1

/-- After as many steps as there are octets to be kept, three times over, peeking has come to its
result. -/
theorem done_peeking :
    (peeking read a r (3 * maxHello + 1)).stage = .done (peek read a r) := by
  have hnone : (peeking read a r (3 * maxHello + 1)).left = 0 := by
    rw [← Nat.le_zero, ← Nat.sub_self (3 * maxHello + 1)]
    exact left_peeking _
  obtain ⟨result, hdone⟩ := Peeking.exists_done_of_left hnone
  rw [← result_peeking (3 * maxHello + 1), Peeking.result_of_done hdone, hdone]

/-- Where the steps end is what comes of peeking. -/
theorem peek_eq_iff {result : Peeked ρ} :
    peek read a r = result ↔ ∃ steps, (peeking read a r steps).stage = .done result := by
  constructor
  · rintro rfl
    exact ⟨_, done_peeking⟩
  · rintro ⟨steps, hdone⟩
    rw [← result_peeking steps, Peeking.result_of_done hdone]

/-! ## What is kept -/

/-- What is kept is what was read, within the limit.  Only octets that are refused were read and
not kept, and those come from one read. -/
structure Sound (read : ReadFrom ρ) (r : ρ) (p : Peeking ρ σ) : Prop where
  stream : p.stream = (firstReads read r p.reads).2
  limit : p.kept.length ≤ maxHello
  whole : p.stage ≠ .done (.failed .tooLarge) → p.kept = given read r p.reads
  few : (given read r p.reads).length ≤ p.kept.length + chunkSize
  told : ∀ hello q, p.stage = .done (.hello hello q) → q = ⟨p.kept, p.stream⟩

namespace Sound

variable {p : Peeking ρ σ}

theorem of_whole (hstream : p.stream = (firstReads read r p.reads).2)
    (hlimit : p.kept.length ≤ maxHello) (hwhole : p.kept = given read r p.reads)
    (htold : ∀ hello q, p.stage = .done (.hello hello q) → q = ⟨p.kept, p.stream⟩) :
    Sound read r p where
  stream := hstream
  limit := hlimit
  whole _ := hwhole
  few := by
    rw [hwhole]
    exact Nat.le_add_right ..
  told := htold

theorem start (read : ReadFrom ρ) (a : Acceptor σ) (r : ρ) :
    Sound read r { stream := r, acceptor := a.init } :=
  of_whole rfl (Nat.zero_le _) rfl nofun

/-- A read, with what becomes of it. -/
theorem receive {result : ReadResult} (hstream : p.stream = (firstReads read r p.reads).2)
    (hlimit : p.kept.length ≤ maxHello)
    (hgiven : given read r p.reads = p.kept ++ result.octets)
    (hfits : result.octets.length ≤ chunkSize) : Sound read r (p.receive result) := by
  have hnothing (h : result.octets = []) : p.kept = given read r p.reads := by
    rw [hgiven, h, List.append_nil]
  cases result with
  | pending => exact of_whole hstream hlimit (hnothing rfl) nofun
  | failed => exact of_whole hstream hlimit (hnothing rfl) nofun
  | ended => exact of_whole hstream hlimit (hnothing rfl) nofun
  | data bs =>
    cases bs with
    | nil => exact of_whole hstream hlimit (hnothing rfl) nofun
    | cons b bs =>
      rw [Peeking.receive, Peeking.keep]
      split
      · refine ⟨hstream, hlimit, fun hstage => absurd rfl hstage, ?_, nofun⟩
        show (given read r p.reads).length ≤ p.kept.length + chunkSize
        rw [hgiven, List.length_append]
        exact Nat.add_le_add_left hfits _
      · next hroom =>
        refine of_whole hstream ?_ hgiven.symm nofun
        show (p.kept ++ b :: bs).length ≤ maxHello
        rw [List.length_append]
        exact Nat.not_lt.mp hroom

theorem next (hfits : ∀ r, (read chunkSize r).1.octets.length ≤ chunkSize)
    (h : Sound read r p) : Sound read r (p.next read a) := by
  obtain ⟨stream, acceptor, kept, reads, stage⟩ := p
  cases stage with
  | done result => exact h
  | reading =>
    obtain rfl : stream = (firstReads read r reads).2 := h.stream
    obtain rfl : kept = given read r reads := h.whole (by simp)
    refine receive ?_ h.limit (given_succ read r reads) (hfits _)
    rw [firstReads_succ]
  | feeding unfed =>
    have hwhole : kept = given read r reads := h.whole (by simp)
    cases unfed with
    | nil =>
      simp only [Peeking.next]
      cases a.judge acceptor with
      | invalid => exact of_whole h.stream h.limit hwhole (by simp [Peeking.heed])
      | more s => exact of_whole h.stream h.limit hwhole (by simp [Peeking.heed])
      | hello hello =>
        refine of_whole h.stream h.limit hwhole fun hello' q hstage => ?_
        obtain ⟨-, rfl⟩ := Peeked.hello.inj (Stage.done.inj hstage)
        rfl
    | cons b bs =>
      simp only [Peeking.next]
      cases a.take acceptor b bs with
      | none => exact of_whole h.stream h.limit hwhole (by simp)
      | some taken => exact of_whole h.stream h.limit hwhole (by simp)

end Sound

/-- **What is kept is what was read**, after any number of steps. -/
theorem sound_peeking (hfits : ∀ r, (read chunkSize r).1.octets.length ≤ chunkSize)
    (steps : Nat) : Sound read r (peeking read a r steps) := by
  induction steps with
  | zero => exact .start read a r
  | succ steps ih => exact ih.next hfits

/-! ## The last read -/

namespace Peeking

variable {p : Peeking ρ σ}

theorem stage_receive_eq_pending_iff {result : ReadResult} :
    (p.receive result).stage = .done .pending ↔ result = .pending := by
  cases result with
  | data bs =>
    cases bs with
    | nil => simp [receive]
    | cons b bs =>
      rw [receive, keep]
      split <;> simp
  | _ => simp [receive]

theorem stage_receive_eq_tooLarge_iff {result : ReadResult} (hlimit : p.kept.length ≤ maxHello) :
    (p.receive result).stage = .done (.failed .tooLarge) ↔
      maxHello < p.kept.length + result.octets.length := by
  cases result with
  | data bs =>
    cases bs with
    | nil => simp [receive, ReadResult.octets, hlimit]
    | cons b bs =>
      rw [receive, keep]
      split
      · next hmore => exact iff_of_true rfl hmore
      · next hroom => exact iff_of_false (by simp) hroom
  | _ => simp [receive, ReadResult.octets, hlimit]

/-- While the acceptor is fed nothing is read. -/
theorem stage_next_of_feeding {unfed : Octets} (h : p.stage = .feeding unfed) :
    (p.next read a).stage ≠ .done .pending ∧
      (p.next read a).stage ≠ .done (.failed .tooLarge) := by
  obtain ⟨stream, acceptor, kept, reads, stage⟩ := p
  obtain rfl : stage = .feeding unfed := h
  cases unfed with
  | nil =>
    simp only [next]
    cases a.judge acceptor <;> simp [heed]
  | cons b bs =>
    simp only [next]
    cases a.take acceptor b bs <;> simp

/-- Peeking waits for a read. -/
theorem stage_next_eq_pending_iff :
    (p.next read a).stage = .done .pending ↔
      p.stage = .done .pending ∨ p.stage = .reading ∧ (read chunkSize p.stream).1 = .pending := by
  cases hstage : p.stage with
  | reading => simp [next, hstage, stage_receive_eq_pending_iff]
  | done result => simp [next, hstage]
  | feeding unfed => simp [(stage_next_of_feeding hstage).1]

/-- Octets are refused when they are read. -/
theorem stage_next_eq_tooLarge_iff (hlimit : p.kept.length ≤ maxHello) :
    (p.next read a).stage = .done (.failed .tooLarge) ↔
      p.stage = .done (.failed .tooLarge) ∨
      p.stage = .reading ∧
        maxHello < p.kept.length + (read chunkSize p.stream).1.octets.length := by
  cases hstage : p.stage with
  | reading => simp [next, hstage, stage_receive_eq_tooLarge_iff, hlimit]
  | done result => simp [next, hstage]
  | feeding unfed => simp [(stage_next_of_feeding hstage).2]

end Peeking

/-- What comes of a certain last step comes of peeking if there is such a step. -/
theorem peek_eq_iff_exists_last {result : Peeked ρ} {last : Nat → Prop}
    (hnext : ∀ steps, (peeking read a r (steps + 1)).stage = .done result ↔
      (peeking read a r steps).stage = .done result ∨ last steps) :
    peek read a r = result ↔ ∃ steps, last steps := by
  rw [peek_eq_iff]
  constructor
  · -- Nothing is done at first, so there was a step by which it was.
    rintro ⟨steps, hdone⟩
    induction steps with
    | zero => cases hdone
    | succ steps ih =>
      rcases (hnext steps).mp hdone with hbefore | hlast
      · exact ih hbefore
      · exact ⟨steps, hlast⟩
  · rintro ⟨steps, hlast⟩
    exact ⟨steps + 1, (hnext steps).mpr (.inr hlast)⟩

section

variable (hfits : ∀ r, (read chunkSize r).1.octets.length ≤ chunkSize)

include hfits

/-- Peeking waits if it comes to a read that does not return. -/
theorem peek_eq_pending_iff :
    peek read a r = .pending ↔ ∃ steps, (peeking read a r steps).stage = .reading ∧
      (read chunkSize (firstReads read r (peeking read a r steps).reads).2).1 = .pending := by
  refine peek_eq_iff_exists_last fun steps => ?_
  rw [← (sound_peeking hfits steps).stream]
  exact Peeking.stage_next_eq_pending_iff

/-- A hello is too large if a read goes beyond the limit before there is an answer. -/
theorem peek_eq_tooLarge_iff :
    peek read a r = .failed .tooLarge ↔ ∃ steps, (peeking read a r steps).stage = .reading ∧
      maxHello < (given read r ((peeking read a r steps).reads + 1)).length := by
  refine peek_eq_iff_exists_last fun steps => ?_
  have hsound := sound_peeking (a := a) (r := r) hfits steps
  rw [peeking, Peeking.stage_next_eq_tooLarge_iff hsound.limit]
  refine or_congr_right (and_congr_right fun hreading => ?_)
  have hwhole := hsound.whole (by rw [hreading]; exact nofun)
  rw [given_succ, ← hsound.stream, ← hwhole, List.length_append]

/-- What comes with a hello was kept when peeking ended. -/
theorem exists_reads_of_hello {hello : Hello} {p : PeekedStream ρ}
    (h : peek read a r = .hello hello p) :
    ∃ reads, p.kept = given read r reads ∧ p.kept.length ≤ maxHello ∧
      p.inner = (firstReads read r reads).2 := by
  obtain ⟨steps, hdone⟩ := peek_eq_iff.mp h
  have hsound := sound_peeking (a := a) (r := r) hfits steps
  obtain rfl := hsound.told hello p hdone
  exact ⟨_, hsound.whole (by rw [hdone]; exact nofun), hsound.limit, hsound.stream⟩

end

/-- **Peeking always stops.**  Whatever the acceptor, and whatever the stream gives, without end
perhaps, as long as no read gives more than its buffer holds,

* the reads, the portions for the acceptor and the questions to it come to an end, after three for
  each octet within the limit at most, and then there is the result;
* all the time no more is kept than the limit allows, and no more than one read beyond what is kept
  has been read;
* what is kept is what was read, unless the last read was refused; so it is with what comes with a
  hello;
* a hello is called too large just if there was no answer to the reads before and the next one goes
  beyond the limit;
* peeking waits for ever just if there was no answer and the next read does not return. -/
theorem peeking_stops (hfits : ∀ r, (read chunkSize r).1.octets.length ≤ chunkSize)
    (a : Acceptor σ) (r : ρ) :
    (∃ steps ≤ 3 * maxHello + 1,
      (peeking read a r steps).stage = .done (peek read a r)) ∧
    (∀ steps, (peeking read a r steps).kept.length ≤ maxHello ∧
      (given read r (peeking read a r steps).reads).length ≤
        (peeking read a r steps).kept.length + chunkSize) ∧
    (∀ steps, (peeking read a r steps).stage ≠ .done (.failed .tooLarge) →
      (peeking read a r steps).kept = given read r (peeking read a r steps).reads) ∧
    (∀ hello p, peek read a r = .hello hello p → ∃ reads, p.kept = given read r reads ∧
      p.kept.length ≤ maxHello ∧ p.inner = (firstReads read r reads).2) ∧
    (peek read a r = .failed .tooLarge ↔ ∃ steps, (peeking read a r steps).stage = .reading ∧
      maxHello < (given read r ((peeking read a r steps).reads + 1)).length) ∧
    (peek read a r = .pending ↔ ∃ steps, (peeking read a r steps).stage = .reading ∧
      (read chunkSize (firstReads read r (peeking read a r steps).reads).2).1 = .pending) := by
  have hsound (steps : Nat) := sound_peeking (a := a) (r := r) hfits steps
  exact ⟨⟨_, Nat.le_refl _, done_peeking⟩, fun steps => ⟨(hsound steps).limit, (hsound steps).few⟩,
    fun steps => (hsound steps).whole, fun _ _ => exists_reads_of_hello hfits,
    peek_eq_tooLarge_iff hfits, peek_eq_pending_iff hfits⟩

/-- A peer that sends without end, as much as there is room for. -/
def endless : ReadFrom Unit := fun size r => (.data (List.replicate size 22), r)

def undecided : Acceptor Octets := .ofFunction fun _ => .incomplete

theorem length_given_endless (reads : Nat) :
    (given endless () reads).length = reads * chunkSize := by
  induction reads with
  | zero => simp [given, firstReads, readAll, ReadResult.join]
  | succ reads ih =>
    rw [given_succ, List.length_append, ih, Nat.succ_mul]
    simp [endless, ReadResult.octets]

theorem peekFrom_endless (kept s : Octets) :
    peekFrom endless undecided (fun _ => chunkSize) kept s () = .failed .tooLarge := by
  induction hroom : maxHello - kept.length using Nat.strong_induction_on generalizing kept s with
  | _ room ih =>
    have hread : endless chunkSize () = (.data (22 :: List.replicate 4095 22), ()) := rfl
    rw [peekFrom, if_neg (by decide), hread]
    dsimp only
    split
    · rfl
    · next hlimit =>
      rw [undecided, Acceptor.feed_ofFunction]
      refine ih _ ?_ _ _ rfl
      simp only [List.length_append, List.length_cons, List.length_replicate] at hlimit ⊢
      omega

theorem endless_refused :
    (∀ r, (endless chunkSize r).1.octets.length ≤ chunkSize) ∧
    peek endless undecided () = .failed .tooLarge ∧
    ∃ steps, (peeking endless undecided () steps).stage = .reading ∧
      (peeking endless undecided () steps).reads = 16 ∧
      (peeking endless undecided () steps).kept.length = 65536 := by
  have hfits (r : Unit) : (endless chunkSize r).1.octets.length ≤ chunkSize :=
    Nat.le_of_eq List.length_replicate
  obtain ⟨-, hlimits, hwhole, -, hlarge, -⟩ := peeking_stops hfits undecided ()
  have hrefused : peek endless undecided () = .failed .tooLarge := peekFrom_endless [] []
  refine ⟨hfits, hrefused, ?_⟩
  obtain ⟨steps, hreading, hmore⟩ := hlarge.mp hrefused
  have hkept := congrArg List.length (hwhole steps (by rw [hreading]; exact nofun))
  have hlimit := (hlimits steps).1
  rw [length_given_endless] at hmore hkept
  rw [maxHello] at hmore hlimit
  rw [chunkSize] at hmore hkept
  exact ⟨steps, hreading, by omega, by omega⟩

end Tls

end Gatehouse
