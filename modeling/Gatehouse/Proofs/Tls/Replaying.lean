import Gatehouse.Tls.Peek

/-!
# A stream that was peeked at is read from its first octet

What is kept while peeking is what was read, no more and no less, so that the next reader sees the
stream as if nobody had read from it.

    Reads               : reads of any sizes give these octets, one read after the other
    Replays             : a peeked stream is the stream that it was made from
    replays_of_peek     : peeking makes nothing else
-/

namespace Gatehouse

/-- Reads of any sizes lead from one state of a stream to another and give some octets. -/
inductive Reads {ρ : Type} (read : ReadFrom ρ) : ρ → Octets → ρ → Prop where
  | done (r : ρ) : Reads read r [] r
  | more {r r' r'' : ρ} {size : Nat} {bs cs : Octets} (first : read size r = (.data bs, r'))
      (rest : Reads read r' cs r'') : Reads read r (bs ++ cs) r''

namespace Reads

variable {ρ : Type} {read : ReadFrom ρ}

theorem trans {r r' r'' : ρ} {bs cs : Octets} (h : Reads read r bs r')
    (h' : Reads read r' cs r'') : Reads read r (bs ++ cs) r'' := by
  induction h with
  | done r => exact h'
  | more first _ ih =>
    rw [List.append_assoc]
    exact .more first (ih h')

/-- One read more. -/
theorem snoc {r r' r'' : ρ} {bs cs : Octets} {size : Nat} (h : Reads read r bs r')
    (last : read size r' = (.data cs, r'')) : Reads read r (bs ++ cs) r'' := by
  have hlast : Reads read r' (cs ++ []) r'' := .more last (.done r'')
  rw [List.append_nil] at hlast
  exact h.trans hlast

end Reads

namespace Tls

variable {ρ σ : Type}

/-- A peeked stream gives the octets of the stream that it was made from, from the first one on:
whatever has been read from it has been read there, up to what is kept, and what is kept can be read
before anything else. -/
structure Replays (read : ReadFrom ρ) (r : ρ) (p : PeekedStream ρ) : Prop where
  sound : ∀ bs p', Reads (PeekedStream.read read) p bs p' → Reads read r (bs ++ p'.kept) p'.inner
  whole : Reads (PeekedStream.read read) p p.kept ⟨[], p.inner⟩

/-- What is read from a peeked stream moves on from what was read before. -/
theorem reads_peeked {read : ReadFrom ρ} {p p' : PeekedStream ρ} {bs : Octets}
    (h : Reads (PeekedStream.read read) p bs p') {r : ρ} {before : Octets}
    (hbefore : Reads read r (before ++ p.kept) p.inner) :
    Reads read r (before ++ bs ++ p'.kept) p'.inner := by
  induction h generalizing before with
  | done p => simpa using hbefore
  | @more p p₁ p₂ size bs cs first _ ih =>
    rw [← List.append_assoc]
    refine ih ?_
    unfold PeekedStream.read at first
    split at first
    · next hkept =>
      obtain ⟨hresult, rfl⟩ := Prod.mk.inj first
      have hk : p.kept = [] := by simpa using hkept
      rw [hk, List.append_nil] at hbefore
      rw [hk, List.append_nil]
      exact hbefore.snoc (Prod.ext hresult rfl)
    · obtain ⟨hresult, rfl⟩ := Prod.mk.inj first
      have hbs : p.kept.take size = bs := ReadResult.data.inj hresult
      rw [← hbs, List.append_assoc, List.take_append_drop]
      exact hbefore

/-- What is kept can be read at once. -/
theorem reads_kept (read : ReadFrom ρ) (p : PeekedStream ρ) :
    Reads (PeekedStream.read read) p p.kept ⟨[], p.inner⟩ := by
  obtain ⟨kept, inner⟩ := p
  cases kept with
  | nil => exact .done _
  | cons b bs =>
    have hread : PeekedStream.read read (b :: bs).length ⟨b :: bs, inner⟩ =
        (.data (b :: bs), ⟨[], inner⟩) := by
      simp [PeekedStream.read]
    exact Reads.snoc (.done _) hread

/-- What has been read when a hello is complete has been kept. -/
theorem reads_of_peekFrom {read : ReadFrom ρ} {a : Acceptor σ} {size : σ → Nat} {start r : ρ}
    {kept : Octets} {s : σ} {hello : Hello} {p : PeekedStream ρ} (hkept : Reads read start kept r)
    (h : peekFrom read a size kept s r = .hello hello p) : Reads read start p.kept p.inner := by
  fun_induction peekFrom read a size kept s r with
  | case8 kept s r _ b bs r' hread =>
    cases h
    exact hkept.snoc hread
  | case10 kept s r _ b bs r' hread _ _ _ _ _ ih => exact ih (hkept.snoc hread) h
  | _ => cases h

/-- **Peeking takes nothing away**: the stream that comes with a hello replays the one that was
peeked at. -/
theorem replays_of_peek {read : ReadFrom ρ} {a : Acceptor σ} {r : ρ} {hello : Hello}
    {p : PeekedStream ρ} (h : peek read a r = .hello hello p) : Replays read r p where
  sound bs p' hreads := by
    have hkept : Reads read r p.kept p.inner := reads_of_peekFrom (.done r) h
    exact reads_peeked hreads (show Reads read r ([] ++ p.kept) p.inner from hkept)
  whole := reads_kept read p

end Tls

end Gatehouse
