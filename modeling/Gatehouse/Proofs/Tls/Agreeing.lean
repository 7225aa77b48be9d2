import Gatehouse.Proofs.Tls.Replaying

/-!
# Whoever reads a hello again reads the same

A hello is read twice: by who peeks at a stream, and then from its first octet by who goes on with
the handshake.  The two read in portions of different sizes and are told of the hello at places that
may differ.  But the octets of one are the first of the other's, and a hello that is complete stays
the same whatever follows it.

    recordFront_eq_record_iff : what a complete record looks like
    verdict_append            : what is complete stays the same
    Acceptor.Told             : an acceptor tells of a hello, however it was fed the octets
    Acceptor.Steady           : of one stream it tells no two hellos
    steady_helloAcceptor      : so it is for the acceptor that is used
    hello_of_receive          : whoever reads the stream again is told of the same hello
-/

namespace Gatehouse.Tls

/-! ## Complete is complete -/

/-- A record that is complete has a header that announces its payload. -/
theorem eq_append_of_recordFront {bs payload rest : Octets} {type : UInt8} :
    recordFront bs = .record type payload rest →
      (20 ≤ type ∧ type ≤ 24) ∧ (payload = [] → type = dataType) ∧
      payload.length < recordLimit ∧ ∃ minor hi lo : UInt8,
        payload.length = hi.toNat * 256 + lo.toNat ∧
        bs = type :: 3 :: minor :: hi :: lo :: (payload ++ rest) := by
  fun_cases recordFront bs with
  | case7 first htype major minor hmajor hi lo r n hempty hlimit hthere =>
    intro h
    obtain ⟨rfl, rfl, rfl⟩ := RecordFront.record.inj h
    obtain rfl : major = 3 := by simpa using hmajor
    have hlength : (r.take n).length = n := List.length_take_of_le (Nat.not_lt.mp hthere)
    refine ⟨by simpa using htype, fun hnil => ?_, by omega, minor, hi, lo, hlength, ?_⟩
    · have hzero : n = 0 := by rw [← hlength, hnil, List.length_nil]
      simpa [hzero] using hempty
    · rw [List.take_append_drop]
  | _ => exact nofun

/-- A record is complete when all of its payload is there. -/
theorem recordFront_eq_record_iff {bs payload rest : Octets} {type : UInt8} :
    recordFront bs = .record type payload rest ↔
      (20 ≤ type ∧ type ≤ 24) ∧ (payload = [] → type = dataType) ∧
      payload.length < recordLimit ∧ ∃ minor hi lo : UInt8,
        payload.length = hi.toNat * 256 + lo.toNat ∧
        bs = type :: 3 :: minor :: hi :: lo :: (payload ++ rest) := by
  refine ⟨eq_append_of_recordFront, ?_⟩
  rintro ⟨⟨hlow, hhigh⟩, hempty, hlimit, minor, hi, lo, hlength, rfl⟩
  have hthere : ¬payload.length + rest.length < payload.length := by omega
  simpa [recordFront, hlow, hhigh, hthere, Nat.not_le.mpr hlimit, ← hlength] using hempty

/-- A record that is complete stays at the front, whatever follows. -/
theorem recordFront_append {bs payload rest : Octets} {type : UInt8}
    (h : recordFront bs = .record type payload rest) (more : Octets) :
    recordFront (bs ++ more) = .record type payload (rest ++ more) := by
  obtain ⟨htype, hempty, hlimit, minor, hi, lo, hlength, rfl⟩ := recordFront_eq_record_iff.mp h
  refine recordFront_eq_record_iff.mpr ⟨htype, hempty, hlimit, minor, hi, lo, hlength, ?_⟩
  simp

/-- What cannot start a record cannot either when more follows. -/
theorem recordFront_append_of_invalid {bs : Octets} (more : Octets) :
    recordFront bs = .invalid → recordFront (bs ++ more) = .invalid := by
  fun_cases recordFront bs with
  | case2 type r htype =>
    intro _
    simp only [List.cons_append, recordFront]
    rw [if_pos htype]
  | case3 type htype major minor r hmajor =>
    intro _
    simp only [List.cons_append, recordFront]
    rw [if_neg htype, if_pos hmajor]
  | case4 type htype major minor hmajor hi lo r n hempty =>
    intro _
    simp only [List.cons_append, recordFront]
    rw [if_neg htype, if_neg hmajor, if_pos hempty]
  | case5 type htype major minor hmajor hi lo r n hempty hlimit =>
    intro _
    simp only [List.cons_append, recordFront]
    rw [if_neg htype, if_neg hmajor, if_neg hempty, if_pos hlimit]
  | _ => exact nofun

/-- What was told stays the same, whatever follows and however many records more may be read. -/
theorem streamVerdict_append {fuel fuel' : Nat} {fragments bs : Octets} {v : Verdict}
    (h : streamVerdict fuel fragments bs = v) (hv : v ≠ .incomplete) (hfuel : fuel ≤ fuel')
    (more : Octets) : streamVerdict fuel' fragments (bs ++ more) = v := by
  induction fuel generalizing fuel' fragments bs with
  | zero => exact absurd h.symm hv
  | succ fuel ih =>
    obtain ⟨fuel', rfl⟩ : ∃ n, fuel' = n + 1 := ⟨fuel' - 1, by omega⟩
    unfold streamVerdict at h ⊢
    cases hfront : recordFront bs with
    | incomplete =>
      rw [hfront] at h
      exact absurd h.symm hv
    | invalid =>
      rw [hfront] at h
      rw [recordFront_append_of_invalid more hfront]
      exact h
    | record type payload rest =>
      rw [hfront] at h
      rw [recordFront_append hfront]
      dsimp only at h ⊢
      split at h
      · next htype => rw [if_pos htype, h]
      · next htype =>
        rw [if_neg htype]
        cases hmessage : messageVerdict (fragments ++ payload) with
        | incomplete =>
          rw [hmessage] at h
          exact ih h (Nat.le_of_succ_le_succ hfuel)
        | hello hello' =>
          rw [hmessage] at h
          exact h
        | invalid =>
          rw [hmessage] at h
          exact h

/-- What was told stays the same. -/
theorem verdict_append_of_ne {bs : Octets} (h : verdict bs ≠ .incomplete) (more : Octets) :
    verdict (bs ++ more) = verdict bs :=
  streamVerdict_append rfl h (by rw [List.length_append]; omega) more

/-- What is complete stays the same. -/
theorem verdict_append {bs : Octets} {hello : Hello} (h : verdict bs = .hello hello)
    (more : Octets) : verdict (bs ++ more) = .hello hello := by
  rw [verdict_append_of_ne (by simp [h]), h]

/-! ## What acceptors tell -/

namespace Acceptor

variable {σ : Type}

/-- An acceptor has come to a state by being fed some octets, in portions of any sizes; it may have
been asked for its judgement between any two of them. -/
inductive Fed (a : Acceptor σ) : Octets → σ → Prop where
  | init : Fed a [] a.init
  | feed {bs cs : Octets} {s s' : σ} (before : Fed a bs s) (h : a.feed s cs = some s') :
      Fed a (bs ++ cs) s'
  | asked {bs : Octets} {s s' : σ} (before : Fed a bs s) (h : a.judge s = .more s') : Fed a bs s'

/-- An acceptor that was fed these octets, in some portions, tells of a hello. -/
def Told (a : Acceptor σ) (bs : Octets) (hello : Hello) : Prop :=
  ∃ s, a.Fed bs s ∧ a.judge s = .hello hello

/-- Of one stream an acceptor tells no two hellos, wherever it is asked. -/
def Steady (a : Acceptor σ) : Prop :=
  ∀ bs more hello hello', a.Told bs hello → a.Told (bs ++ more) hello' → hello = hello'

end Acceptor

def Judgement.verdict {σ : Type} : Judgement σ → Verdict
  | .more _ => .incomplete
  | .hello h => .hello h
  | .invalid => .invalid

theorem verdict_judge_helloAcceptor (s : Buffered) :
    (helloAcceptor.judge s).verdict = verdict s.octets := by
  simp only [helloAcceptor]
  cases hverdict : verdict s.octets <;> rfl

theorem eq_of_judge_helloAcceptor {s s' : Buffered} (h : helloAcceptor.judge s = .more s') :
    s' = { s with joining := startsHandshake s.octets } := by
  simp only [helloAcceptor] at h
  split at h <;> cases h
  rfl

/-- The acceptor that is used keeps all that it is fed. -/
theorem octets_of_feed {s s' : Buffered} {bs : Octets} (h : helloAcceptor.feed s bs = some s') :
    s'.octets = s.octets ++ bs := by
  fun_induction helloAcceptor.feed s bs with
  | case1 s =>
    cases h
    simp
  | case2 => cases h
  | case3 s b bs t n htake ih =>
    simp only [helloAcceptor, Option.ite_none_left_eq_some, Option.some.injEq,
      Prod.mk.injEq] at htake
    obtain ⟨-, rfl, rfl⟩ := htake
    rw [ih h]
    simp

theorem octets_of_fed {bs : Octets} {s : Buffered} (h : helloAcceptor.Fed bs s) :
    s.octets = bs := by
  induction h with
  | init => rfl
  | feed _ hfeed ih => rw [octets_of_feed hfeed, ih]
  | asked _ hmore ih =>
    rw [eq_of_judge_helloAcceptor hmore]
    exact ih

theorem verdict_of_told {bs : Octets} {hello : Hello} (h : helloAcceptor.Told bs hello) :
    verdict bs = .hello hello := by
  obtain ⟨s, hfed, hjudge⟩ := h
  rw [← octets_of_fed hfed, ← verdict_judge_helloAcceptor, hjudge]
  rfl

/-- The acceptor that is used tells of one hello. -/
theorem steady_helloAcceptor : helloAcceptor.Steady := by
  intro bs more hello hello' h h'
  have hmore := verdict_append (verdict_of_told h) more
  exact Verdict.hello.inj (hmore.symm.trans (verdict_of_told h'))

/-! ## Reading again -/

variable {ρ σ : Type} {read : ReadFrom ρ} {a : Acceptor σ}

/-- Whoever reads a hello has it from the acceptor, which was fed what is kept. -/
theorem told_of_peekFrom {size : σ → Nat} {kept : Octets} {s : σ} {r : ρ} {hello : Hello}
    {p : PeekedStream ρ} (hfed : a.Fed kept s)
    (h : peekFrom read a size kept s r = .hello hello p) : a.Told p.kept hello := by
  fun_induction peekFrom read a size kept s r with
  | case8 kept s r _ b bs r' hread _ s' hfeed hello' hjudge =>
    cases h
    exact ⟨s', hfed.feed hfeed, hjudge⟩
  | case10 kept s r _ b bs r' hread _ s' hfeed s'' hjudge ih =>
    exact ih ((hfed.feed hfeed).asked hjudge) h
  | _ => cases h

/-- What is read from a peeked stream is the first of what is kept, or goes beyond it. -/
theorem comparable_of_reads {p p' : PeekedStream ρ} {bs : Octets}
    (h : Reads (PeekedStream.read read) p bs p') : bs <+: p.kept ∨ p.kept <+: bs := by
  induction h with
  | done p => exact .inl (List.nil_prefix)
  | @more p p₁ p₂ size bs cs first _ ih =>
    unfold PeekedStream.read at first
    split at first
    · next hkept =>
      rw [List.isEmpty_iff.mp hkept]
      exact .inr List.nil_prefix
    · obtain ⟨hresult, rfl⟩ := Prod.mk.inj first
      obtain rfl := ReadResult.data.inj hresult
      have hkept : p.kept.take size ++ p.kept.drop size = p.kept := List.take_append_drop ..
      refine ih.imp (fun hprefix => ?_) fun hprefix => ?_
      · have hall : p.kept.take size ++ cs <+: p.kept.take size ++ p.kept.drop size :=
          (List.prefix_append_right_inj _).mpr hprefix
        rwa [hkept] at hall
      · have hall : p.kept.take size ++ p.kept.drop size <+: p.kept.take size ++ cs :=
          (List.prefix_append_right_inj _).mpr hprefix
        rwa [hkept] at hall

/-- **Whoever reads the stream again is told of the same hello**, if of any. -/
theorem hello_of_receive (ha : a.Steady) {r : ρ} {hello hello' : Hello} {p : PeekedStream ρ}
    {p' : PeekedStream (PeekedStream ρ)} (h : peek read a r = .hello hello p)
    (h' : receive (PeekedStream.read read) a p = .hello hello' p') : hello' = hello := by
  have htold : a.Told p.kept hello := told_of_peekFrom .init h
  have htold' : a.Told p'.kept hello' := told_of_peekFrom .init h'
  have hreads : Reads (PeekedStream.read read) p p'.kept p'.inner :=
    reads_of_peekFrom (.done p) h'
  rcases comparable_of_reads hreads with ⟨more, hkept⟩ | ⟨more, hkept⟩
  · rw [← hkept] at htold
    exact ha _ _ _ _ htold' htold
  · rw [← hkept] at htold'
    exact (ha _ _ _ _ htold htold').symm

end Gatehouse.Tls
