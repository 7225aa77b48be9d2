import Gatehouse.Proofs.Certificate.Delaying

/-!
# Which certificates are forgotten

What is noted of a certificate stays as it is until a sweep forgets it, and a sweep forgets just
the certificates that have expired.  Sweeps that take effect are an hour apart, since each of them
puts off the next.  It does not matter for this whether uses wake in time: a use that is held may
sleep for longer than it is due to.

    Delayer.lateRun?                 : runs in which uses may wake late
    Delayer.stays_or_forgotten       : what becomes of a note, step by step
    Delayer.pairwise_sweeps          : sweeps that take effect, in the course of events
    Delayer.live_never_forgotten     : all that holds of the notes, in every run
-/

namespace Gatehouse.Certificate

namespace DelayState

variable {s : DelayState} {now : Nat} {wall : WallTime} {serial : String}

/-! ## One state -/

/-- Each certificate is noted at most once. -/
def Distinct (s : DelayState) : Prop := (s.entries.map (·.1)).Nodup

theorem distinct_start (now : Nat) : (start now).Distinct := List.nodup_nil

theorem sweep_of_lt (h : now < s.nextCleanup) : s.sweep now wall = s := if_pos h

theorem sweep_of_le (h : s.nextCleanup ≤ now) :
    s.sweep now wall =
      ⟨s.entries.filter fun e => wall < e.2.expire, now + cleanupInterval⟩ :=
  if_neg (Nat.not_lt.mpr h)

theorem Distinct.sweep (h : s.Distinct) : (s.sweep now wall).Distinct := by
  rcases Nat.lt_or_ge now s.nextCleanup with hlt | hle
  · rwa [sweep_of_lt hlt]
  · rw [sweep_of_le hle]
    exact (List.filter_sublist.map _).nodup h

theorem Distinct.arrive (h : s.Distinct) (t : Timing) : (s.arrive now wall t).1.Distinct := by
  cases hfresh : t.isFresh wall with
  | false => rwa [arrive_old s now hfresh]
  | true =>
    rw [arrive_fresh s now hfresh]
    exact h.sweep

theorem Distinct.wake (h : s.Distinct) (t : Timing) : (s.wake now t).Distinct := by
  unfold DelayState.wake
  split
  · exact h
  · show (List.map Prod.fst
      (s.entries.filter (·.1 ≠ t.serial) ++ [(t.serial, DelayEntry.mk now t.notAfter)])).Nodup
    rw [List.map_append, List.nodup_append]
    refine ⟨(List.filter_sublist.map _).nodup h, List.pairwise_singleton _ _, ?_⟩
    rintro key hkey other hother rfl
    obtain ⟨entry, hentry, rfl⟩ := List.mem_map.mp hkey
    have hne : entry.1 ≠ t.serial := of_decide_eq_true (List.mem_filter.mp hentry).2
    exact hne (List.mem_singleton.mp hother)

/-- After a sweep that takes effect nothing is noted that has expired. -/
theorem live_of_sweep (h : s.nextCleanup ≤ now) :
    ∀ p ∈ (s.sweep now wall).entries, wall < p.2.expire := by
  intro p hp
  rw [sweep_of_le h] at hp
  exact of_decide_eq_true (List.mem_filter.mp hp).2

/-- A sweep leaves a note as it is or forgets it, and that only when it has expired. -/
theorem Distinct.find?_sweep (h : s.Distinct) {e : DelayEntry} (he : s.find? serial = some e) :
    (s.sweep now wall).find? serial = some e ∨
      (s.sweep now wall).find? serial = none ∧ s.nextCleanup ≤ now ∧ e.expire ≤ wall := by
  by_cases hlive : wall < e.expire
  · left
    rw [DelayState.find?_sweep fun e' he' => ?_, he]
    obtain rfl := Option.some.inj (he.symm.trans he')
    exact hlive
  · rcases Nat.lt_or_ge now s.nextCleanup with hlt | hle
    · exact .inl (by rw [sweep_of_lt hlt, he])
    · refine .inr ⟨?_, hle, Int.not_lt.mp hlive⟩
      cases hafter : (s.sweep now wall).find? serial with
      | none => rfl
      | some e' =>
        -- What is found is a note of before, so it is the one that has expired.
        have hmem : (serial, e') ∈ (s.sweep now wall).entries :=
          (mem_iff_lookup h.sweep serial e').mpr hafter
        have hbefore : (serial, e') ∈ s.entries := by
          rw [sweep_of_le hle] at hmem
          exact (List.mem_filter.mp hmem).1
        have hfound : s.find? serial = some e' := (mem_iff_lookup h serial e').mp hbefore
        obtain rfl := Option.some.inj (he.symm.trans hfound)
        exact absurd (live_of_sweep hle _ hmem) hlive

end DelayState

namespace Delayer

/-! ## Runs in which uses may wake late -/

/-- The state after an event, if it can happen, when time passes whether uses have woken or not. -/
def lateStep? (d : Delayer) : Event → Option Delayer
  | .passed time => some { d with now := d.now + time }
  | e => d.step? e

/-- The state after a list of events, if they can happen in this order. -/
def lateRun? (d : Delayer) (events : List Event) : Option Delayer := events.foldlM lateStep? d

/-- All that can happen to a delayer whose uses may wake late. -/
inductive LateSteps (d : Delayer) : Event → Delayer → Prop where
  | arrived (wall : WallTime) (timing : Timing) :
      LateSteps d (.arrived wall timing) (d.arrive wall timing)
  | woke {n : Nat} {u : Use} (hu : d.uses[n]? = some u) (hheld : u.returned = none)
      (hdue : u.due ≤ d.now) : LateSteps d (.woke n) (d.wake n u)
  | passed (time : Nat) : LateSteps d (.passed time) { d with now := d.now + time }

variable {d d' : Delayer} {e : Event} {events : List Event} {serial : String} {entry : DelayEntry}

theorem lateSteps_of_lateStep? (h : d.lateStep? e = some d') : LateSteps d e d' := by
  cases e with
  | arrived wall timing =>
    cases h
    exact .arrived wall timing
  | woke n =>
    have hwoke : d.step? (.woke n) = some d' := h
    cases step?_eq_some.mp hwoke with
    | woke hu hheld hdue => exact .woke hu hheld hdue
  | passed time =>
    cases h
    exact .passed time

theorem lateRun?_cons :
    lateRun? d (e :: events) = some d' ↔
      ∃ m, d.lateStep? e = some m ∧ lateRun? m events = some d' := by
  unfold lateRun?
  rw [List.foldlM_cons]
  exact Option.bind_eq_some_iff

theorem lateRun?_append {events' : List Event} :
    lateRun? d (events ++ events') = some d' ↔
      ∃ m, lateRun? d events = some m ∧ lateRun? m events' = some d' := by
  unfold lateRun?
  rw [List.foldlM_append]
  exact Option.bind_eq_some_iff

/-! ## Sweeps -/

/-- The moment of the day for the sweep that takes effect at an event, if one does. -/
def sweepAt? (d : Delayer) : Event → Option WallTime
  | .arrived wall timing =>
    if timing.isFresh wall && d.state.nextCleanup ≤ d.now then some wall else none
  | _ => none

structure Sweep where
  time : Nat
  wall : WallTime
deriving DecidableEq, Repr

def sweeps (d : Delayer) : List Event → List Sweep
  | [] => []
  | e :: events =>
    let first := (d.sweepAt? e).map fun wall => ⟨d.now, wall⟩
    let others := match d.lateStep? e with
      | some d' => sweeps d' events
      | none => []
    first.toList ++ others

theorem state_arrive (d : Delayer) (wall : WallTime) (timing : Timing) :
    (d.arrive wall timing).state = (d.state.arrive d.now wall timing).1 := rfl

theorem sweepAt?_arrived {wall wall' : WallTime} {timing : Timing} :
    d.sweepAt? (.arrived wall timing) = some wall' ↔
      timing.isFresh wall = true ∧ d.state.nextCleanup ≤ d.now ∧ wall = wall' := by
  simp [sweepAt?, and_assoc]

/-- An event at which no sweep takes effect does not put off the next one. -/
theorem nextCleanup_of_lateSteps (h : LateSteps d e d') :
    d'.state.nextCleanup =
      if (d.sweepAt? e).isSome then d.now + cleanupInterval else d.state.nextCleanup := by
  cases h with
  | arrived wall timing =>
    rw [state_arrive]
    cases hfresh : timing.isFresh wall with
    | false => simp [DelayState.arrive_old _ _ hfresh, sweepAt?, hfresh]
    | true =>
      rw [DelayState.arrive_fresh _ _ hfresh]
      rcases Nat.lt_or_ge d.now d.state.nextCleanup with hlt | hle
      · simp [DelayState.sweep_of_lt hlt, sweepAt?, Nat.not_le.mpr hlt]
      · simp [DelayState.sweep_of_le hle, sweepAt?, hfresh, hle]
  | @woke n u =>
    show (if u.hold = .firstUse then d.state.wake d.now u.timing else d.state).nextCleanup = _
    split
    · unfold DelayState.wake
      split <;> rfl
    · rfl
  | passed => rfl

theorem le_now_of_sweepAt? {wall : WallTime} (h : d.sweepAt? e = some wall) :
    d.state.nextCleanup ≤ d.now := by
  cases e with
  | arrived wall' timing => exact (sweepAt?_arrived.mp h).2.1
  | woke n => cases h
  | passed time => cases h

theorem le_nextCleanup_of_lateSteps (h : LateSteps d e d') :
    d.state.nextCleanup ≤ d'.state.nextCleanup := by
  rw [nextCleanup_of_lateSteps h]
  split
  · next hsweep =>
    obtain ⟨wall, hwall⟩ := Option.isSome_iff_exists.mp hsweep
    exact Nat.le_add_right_of_le (le_now_of_sweepAt? hwall)
  · exact Nat.le_refl _

/-- No sweep takes effect before it is time for one. -/
theorem le_time_of_mem_sweeps (d : Delayer) (events : List Event) :
    ∀ s ∈ d.sweeps events, d.state.nextCleanup ≤ s.time := by
  induction events generalizing d with
  | nil => exact fun _ hs => absurd hs List.not_mem_nil
  | cons e events ih =>
    intro s hs
    rcases List.mem_append.mp hs with hs | hs
    · obtain ⟨wall, hwall, rfl⟩ := Option.map_eq_some_iff.mp (Option.mem_toList.mp hs)
      exact le_now_of_sweepAt? hwall
    · cases hstep : d.lateStep? e with
      | none => simp [hstep] at hs
      | some d' =>
        simp only [hstep] at hs
        exact Nat.le_trans (le_nextCleanup_of_lateSteps (lateSteps_of_lateStep? hstep)) (ih d' s hs)

/-- **Sweeps that take effect are an hour apart.** -/
theorem pairwise_sweeps (d : Delayer) (events : List Event) :
    (d.sweeps events).Pairwise fun s t => s.time + cleanupInterval ≤ t.time := by
  induction events generalizing d with
  | nil => exact .nil
  | cons e events ih =>
    unfold sweeps
    refine List.pairwise_append.mpr ⟨?_, ?_, fun s hs t ht => ?_⟩
    · cases d.sweepAt? e <;> simp
    · cases d.lateStep? e with
      | none => exact .nil
      | some d' => exact ih d'
    · obtain ⟨wall, hwall, rfl⟩ := Option.map_eq_some_iff.mp (Option.mem_toList.mp hs)
      cases hstep : d.lateStep? e with
      | none => simp [hstep] at ht
      | some d' =>
        simp only [hstep] at ht
        have hnext : d'.state.nextCleanup = d.now + cleanupInterval := by
          rw [nextCleanup_of_lateSteps (lateSteps_of_lateStep? hstep), hwall]
          rfl
        exact hnext ▸ le_time_of_mem_sweeps d' events t ht

/-! ## What becomes of a note -/

theorem distinct_of_lateSteps (hd : d.state.Distinct) (h : LateSteps d e d') :
    d'.state.Distinct := by
  cases h with
  | arrived wall timing => exact hd.arrive timing
  | @woke n u =>
    show (if u.hold = .firstUse then d.state.wake d.now u.timing else d.state).Distinct
    split
    · exact hd.wake u.timing
    · exact hd
  | passed => exact hd

theorem distinct_of_lateRun (hd : d.state.Distinct) (h : lateRun? d events = some d') :
    d'.state.Distinct := by
  induction events generalizing d with
  | nil =>
    obtain rfl : d = d' := Option.some.inj h
    exact hd
  | cons e events ih =>
    obtain ⟨m, hm, hrest⟩ := lateRun?_cons.mp h
    exact ih (distinct_of_lateSteps hd (lateSteps_of_lateStep? hm)) hrest

/-- A step leaves a note as it is, or it is a sweep that forgets it when it has expired. -/
theorem find?_of_lateSteps (hd : d.state.Distinct) (h : LateSteps d e d')
    (hentry : d.state.find? serial = some entry) :
    d'.state.find? serial = some entry ∨
      d'.state.find? serial = none ∧ ∃ wall, d.sweepAt? e = some wall ∧ entry.expire ≤ wall := by
  cases h with
  | arrived wall timing =>
    rw [state_arrive]
    cases hfresh : timing.isFresh wall with
    | false =>
      rw [DelayState.arrive_old _ _ hfresh]
      exact .inl hentry
    | true =>
      rw [DelayState.arrive_fresh _ _ hfresh]
      refine (hd.find?_sweep hentry).imp_right ?_
      rintro ⟨hnone, hdue, hexpired⟩
      exact ⟨hnone, wall, sweepAt?_arrived.mpr ⟨hfresh, hdue, rfl⟩, hexpired⟩
  | @woke n u =>
    left
    rw [find?_state_wake, hentry, Option.getD_some, ite_self]
  | passed => exact .inl hentry

/-- A note stays as it is in the course of events, up to a sweep that forgets it when it has
expired. -/
def Forgets (d : Delayer) (events : List Event) (serial : String) (entry : DelayEntry) : Prop :=
  ∃ before e after m m' wall, events = before ++ e :: after ∧ lateRun? d before = some m ∧
    m.lateStep? e = some m' ∧ m.sweepAt? e = some wall ∧ entry.expire ≤ wall ∧
    m.state.find? serial = some entry ∧ m'.state.find? serial = none

/-- **A note stays as it is** in the course of events, unless a sweep forgets it. -/
theorem stays_or_forgotten (hd : d.state.Distinct) (h : lateRun? d events = some d')
    (hentry : d.state.find? serial = some entry) :
    d'.state.find? serial = some entry ∨ d.Forgets events serial entry := by
  induction events generalizing d with
  | nil =>
    obtain rfl : d = d' := Option.some.inj h
    exact .inl hentry
  | cons e events ih =>
    obtain ⟨m, hm, hrest⟩ := lateRun?_cons.mp h
    have hstep := lateSteps_of_lateStep? hm
    rcases find?_of_lateSteps hd hstep hentry with hkept | ⟨hnone, wall, hwall, hexpired⟩
    · refine (ih (distinct_of_lateSteps hd hstep) hrest hkept).imp_right ?_
      rintro ⟨before, e', after, n, n', wall, rfl, hbefore, hforgets⟩
      have hbefore := lateRun?_cons.mpr ⟨m, hm, hbefore⟩
      exact ⟨e :: before, e', after, n, n', wall, rfl, hbefore, hforgets⟩
    · exact .inr ⟨[], e, events, d, m, wall, rfl, rfl, hm, hwall, hexpired, hentry, hnone⟩

theorem live_of_sweepAt? {wall : WallTime} (h : LateSteps d e d')
    (hsweep : d.sweepAt? e = some wall) : ∀ p ∈ d'.state.entries, wall < p.2.expire := by
  cases h with
  | arrived wall' timing =>
    obtain ⟨hfresh, hdue, rfl⟩ := sweepAt?_arrived.mp hsweep
    rw [state_arrive, DelayState.arrive_fresh _ _ hfresh]
    exact DelayState.live_of_sweep hdue
  | woke => cases hsweep
  | passed => cases hsweep

/-- **No live certificate is forgotten.**  In every run of a new delayer, in which any number of
uses arrive and wake, in time or late,

* each certificate is noted at most once;
* what is noted of a certificate at some time is noted later just the same, unless in between a
  sweep takes effect when the certificate has expired, and forgets it;
* sweeps that take effect are at least an hour apart;
* after a sweep that takes effect nothing is noted that has expired. -/
theorem live_never_forgotten {now : Nat} (h : lateRun? (start now) events = some d) :
    (d.state.entries.map (·.1)).Nodup ∧
    (∀ before after m, events = before ++ after → lateRun? (start now) before = some m →
      ∀ serial entry, m.state.find? serial = some entry →
        d.state.find? serial = some entry ∨ m.Forgets after serial entry) ∧
    ((start now).sweeps events).Pairwise (fun s t => s.time + 3600000 ≤ t.time) ∧
    (∀ before e after m m' wall, events = before ++ e :: after →
      lateRun? (start now) before = some m → m.lateStep? e = some m' → m.sweepAt? e = some wall →
        ∀ p ∈ m'.state.entries, wall < p.2.expire) := by
  have hstart := DelayState.distinct_start now
  refine ⟨distinct_of_lateRun hstart h, ?_, pairwise_sweeps _ _, ?_⟩
  · rintro before after m rfl hm serial entry hentry
    obtain ⟨m', hm', hrest⟩ := lateRun?_append.mp h
    obtain rfl := Option.some.inj (hm.symm.trans hm')
    exact stays_or_forgotten (distinct_of_lateRun hstart hm) hrest hentry
  · intro before e after m m' wall _ _ hstep hsweep
    exact live_of_sweepAt? (lateSteps_of_lateStep? hstep) hsweep

section

/-- A certificate that expires after two seconds. -/
def fleetingCertificate : Timing := ⟨"0d", .ofSeconds 0, .ofSeconds 2⟩

/-- It is used, and the use wakes half a second late. -/
def fleetingUse : List Event :=
  [.arrived (.ofSeconds 1) fleetingCertificate, .passed 2500, .woke 0]

/-- An hour later another certificate is used. -/
def laterUse : List Event := [.passed 3600000, .arrived (.ofSeconds 3603) newCertificate]

theorem fleeting_forgotten : ∃ m d,
    lateRun? (start 0) fleetingUse = some m ∧ m.state.find? "0d" = some ⟨2500, .ofSeconds 2⟩ ∧
    lateRun? (start 0) (fleetingUse ++ laterUse) = some d ∧
    m.Forgets laterUse "0d" ⟨2500, .ofSeconds 2⟩ := by
  have hnoted : ((lateRun? (start 0) fleetingUse).any fun m =>
      m.state.find? "0d" = some ⟨2500, .ofSeconds 2⟩) = true := by decide +kernel
  have hgone : ((lateRun? (start 0) (fleetingUse ++ laterUse)).any fun d =>
      d.state.find? "0d" = none) = true := by decide +kernel
  obtain ⟨m, hm, hentry⟩ := (Option.any_eq_true _ _).mp hnoted
  obtain ⟨d, hd, hnone⟩ := (Option.any_eq_true _ _).mp hgone
  have hentry := of_decide_eq_true hentry
  have hnone := of_decide_eq_true hnone
  obtain ⟨-, hkeeps, -⟩ := live_never_forgotten hd
  rcases hkeeps _ _ m rfl hm "0d" _ hentry with hkept | hforgets
  · cases hnone.symm.trans hkept
  · exact ⟨m, d, hm, hentry, hd, hforgets⟩

end

end Delayer

end Gatehouse.Certificate
