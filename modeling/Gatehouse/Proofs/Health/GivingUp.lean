import Gatehouse.Health.Checker

/-!
# When the health checker gives up

The checker counts the failures since the last success.  So it gives up with the probe by which five
in a row have failed for the first time, and makes no probe after that; it goes on for ever if there
is a success among any five probes in a row.

    FiveFailed           : the last five of the probes made have failed
    Streak               : what the checker counts
    Watched              : a checker and the probes that it has made, in its turns
    Watched.turn         : what one turn keeps
    watched              : so it is after any number of turns
    gives_up_exactly_at_five : after which probe the checker gives up, if it does
-/

namespace Gatehouse.Health

/-! ## Specification -/

/-- The probes of a sequence; the world is how many were made. -/
def probeOf (outcomes : Nat → Outcome) (made : Nat) : Outcome × Nat := (outcomes made, made + 1)

/-- Of so many probes the last five have failed. -/
def FiveFailed (outcomes : Nat → Outcome) (made : Nat) : Prop :=
  5 ≤ made ∧ ∀ i < made, made ≤ i + 5 → outcomes i = .failure

namespace Checker

/-- The checker makes so many probes, one in each turn, and has given up then. -/
def GivesUpAfter (c : Checker) (outcomes : Nat → Outcome) (made : Nat) : Prop :=
  (∀ turns < made, ∃ failures, c.watch (probeOf outcomes) turns 0 = (.running failures, turns)) ∧
    ∀ turns, made ≤ turns → c.watch (probeOf outcomes) turns 0 = (.unhealthy 5, made)

def GoesOn (c : Checker) (outcomes : Nat → Outcome) : Prop :=
  ∀ turns, ∃ failures, c.watch (probeOf outcomes) turns 0 = (.running failures, turns)

end Checker

/-! ## What is counted -/

variable {outcomes : Nat → Outcome}

/-- The last probes have failed, this many in a row, and no more. -/
structure Streak (outcomes : Nat → Outcome) (made failures : Nat) : Prop where
  le : failures ≤ made
  failed : ∀ i < made, made ≤ i + failures → outcomes i = .failure
  before : ∀ i, i + failures + 1 = made → outcomes i = .success

theorem Streak.start : Streak outcomes 0 0 := ⟨Nat.le_refl _, by omega, by omega⟩

theorem Streak.success {made : Nat} (h : outcomes made = .success) :
    Streak outcomes (made + 1) 0 := by
  refine ⟨Nat.zero_le _, by omega, fun i hi => ?_⟩
  obtain rfl : i = made := by omega
  exact h

theorem Streak.failure {made failures : Nat} (hs : Streak outcomes made failures)
    (h : outcomes made = .failure) : Streak outcomes (made + 1) (failures + 1) := by
  refine ⟨Nat.succ_le_succ hs.le, fun i hi hlate => ?_, fun i hi => hs.before i (by omega)⟩
  rcases Nat.lt_succ_iff_lt_or_eq.mp hi with hi | rfl
  · exact hs.failed i hi (by omega)
  · exact h

/-- With fewer than five failures at the end, there are not five failures at the end. -/
theorem Streak.not_fiveFailed {made failures : Nat} (hs : Streak outcomes made failures)
    (hfew : failures < 5) : ¬FiveFailed outcomes made := by
  rintro ⟨hmade, hfailed⟩
  have hsuccess := hs.before (made - failures - 1) (by omega)
  have hfailure := hfailed (made - failures - 1) (by omega) (by omega)
  rw [hsuccess] at hfailure
  cases hfailure

theorem Streak.fiveFailed {made : Nat} (hs : Streak outcomes made 5) : FiveFailed outcomes made :=
  ⟨hs.le, hs.failed⟩

/-! ## Turns -/

/-- What has become of a checker in its turns, with how many probes it has made. -/
inductive Watched (outcomes : Nat → Outcome) (turns : Nat) : Checker × Nat → Prop where
  | running {failures : Nat} (hfew : failures < 5) (hstreak : Streak outcomes turns failures)
      (hnever : ∀ made ≤ turns, ¬FiveFailed outcomes made) :
      Watched outcomes turns (.running failures, turns)
  | unhealthy {made : Nat} (hmade : made ≤ turns) (hfailed : FiveFailed outcomes made)
      (hfirst : ∀ earlier < made, ¬FiveFailed outcomes earlier) :
      Watched outcomes turns (.unhealthy 5, made)

theorem watched_start : Watched outcomes 0 (.running 0, 0) := by
  refine .running (by decide) .start fun made hmade hfailed => ?_
  exact Nat.not_succ_le_zero 4 (Nat.le_trans hfailed.1 hmade)

theorem Watched.turn {turns : Nat} {s : Checker × Nat} (h : Watched outcomes turns s) :
    Watched outcomes (turns + 1) (s.1.watch (probeOf outcomes) 1 s.2) := by
  cases h with
  | unhealthy hmade hfailed hfirst => exact .unhealthy (Nat.le_succ_of_le hmade) hfailed hfirst
  | @running failures hfew hstreak hnever =>
    have hgoes {k : Nat} (hk : k < 5) (hs : Streak outcomes (turns + 1) k) :
        Watched outcomes (turns + 1) (.running k, turns + 1) := by
      refine .running hk hs fun made hmade => ?_
      rcases Nat.le_succ_iff.mp hmade with hmade | rfl
      · exact hnever made hmade
      · exact hs.not_fiveFailed hk
    show Watched outcomes (turns + 1) ((Checker.running failures).step (outcomes turns), turns + 1)
    cases houtcome : outcomes turns with
    | success => exact hgoes (by decide) (.success houtcome)
    | failure =>
      have hs := hstreak.failure houtcome
      by_cases hlast : maxFailures ≤ failures + 1
      · obtain rfl : failures = 4 := by
          rw [maxFailures] at hlast
          omega
        exact .unhealthy (Nat.le_refl _) hs.fiveFailed fun made hmade =>
          hnever made (Nat.le_of_lt_succ hmade)
      · rw [Checker.step, if_neg hlast]
        exact hgoes (Nat.not_le.mp hlast) hs

/-- **What has become of a checker after any number of turns.** -/
theorem watched (outcomes : Nat → Outcome) (turns : Nat) :
    Watched outcomes turns ((Checker.running 0).watch (probeOf outcomes) turns 0) := by
  induction turns with
  | zero => exact watched_start
  | succ turns ih =>
    rw [Checker.watch_add]
    exact ih.turn

/-! ## Giving up -/

/-- The five last failures are the first five in a row. -/
def FirstFailed (outcomes : Nat → Outcome) (made : Nat) : Prop :=
  FiveFailed outcomes made ∧ ∀ earlier < made, ¬FiveFailed outcomes earlier

theorem FirstFailed.unique {made made' : Nat} (h : FirstFailed outcomes made)
    (h' : FirstFailed outcomes made') : made = made' := by
  rcases Nat.lt_trichotomy made made' with hlt | heq | hgt
  · exact absurd h.1 (h'.2 made hlt)
  · exact heq
  · exact absurd h'.1 (h.2 made' hgt)

/-- Before the first five failures the checker runs. -/
theorem exists_running {turns : Nat} (h : ∀ made ≤ turns, ¬FiveFailed outcomes made) :
    ∃ failures, (Checker.running 0).watch (probeOf outcomes) turns 0 =
      (.running failures, turns) := by
  have hwatched := watched outcomes turns
  generalize (Checker.running 0).watch (probeOf outcomes) turns 0 = s at hwatched ⊢
  cases hwatched with
  | running => exact ⟨_, rfl⟩
  | unhealthy hmade hfailed => exact absurd hfailed (h _ hmade)

/-- After them it has given up. -/
theorem eq_unhealthy {made turns : Nat} (h : FirstFailed outcomes made) (hturns : made ≤ turns) :
    (Checker.running 0).watch (probeOf outcomes) turns 0 = (.unhealthy 5, made) := by
  have hwatched := watched outcomes turns
  generalize (Checker.running 0).watch (probeOf outcomes) turns 0 = s at hwatched ⊢
  cases hwatched with
  | running _ _ hnever => exact absurd h.1 (hnever made hturns)
  | unhealthy _ hfailed hfirst => rw [FirstFailed.unique ⟨hfailed, hfirst⟩ h]

theorem givesUpAfter_iff {made : Nat} :
    (Checker.running 0).GivesUpAfter outcomes made ↔ FirstFailed outcomes made := by
  constructor
  · rintro ⟨-, hafter⟩
    have hwatched := watched outcomes made
    rw [hafter made (Nat.le_refl _)] at hwatched
    cases hwatched with
    | unhealthy _ hfailed hfirst => exact ⟨hfailed, hfirst⟩
  · intro h
    exact ⟨fun turns hturns => exists_running fun earlier hearlier =>
      h.2 earlier (Nat.lt_of_le_of_lt hearlier hturns), fun turns hturns => eq_unhealthy h hturns⟩

/-- A success among any five probes in a row means that no five in a row fail. -/
theorem success_within_five_iff :
    (∀ first, ∃ i, first ≤ i ∧ i < first + 5 ∧ outcomes i = .success) ↔
      ∀ made, ¬FiveFailed outcomes made := by
  constructor
  · rintro h made ⟨hmade, hfailed⟩
    obtain ⟨i, hfirst, hlast, hsuccess⟩ := h (made - 5)
    have hfailure := hfailed i (by omega) (by omega)
    rw [hsuccess] at hfailure
    cases hfailure
  · intro h first
    refine Classical.byContradiction fun hnone =>
      h (first + 5) ⟨Nat.le_add_left .., fun i hi hlate => ?_⟩
    cases houtcome : outcomes i with
    | failure => rfl
    | success => exact absurd ⟨i, by omega, hi, houtcome⟩ hnone

/-- The checker goes on for ever just if there is a success among any five probes in a row. -/
theorem goesOn_iff :
    (Checker.running 0).GoesOn outcomes ↔
      ∀ first, ∃ i, first ≤ i ∧ i < first + 5 ∧ outcomes i = .success := by
  rw [success_within_five_iff]
  constructor
  · intro h made hfailed
    obtain ⟨failures, hrunning⟩ := h made
    have hwatched := watched outcomes made
    rw [hrunning] at hwatched
    cases hwatched with
    | running _ _ hnever => exact hnever made (Nat.le_refl _) hfailed
  · exact fun h turns => exists_running fun made _ => h made

/-- **The checker gives up after exactly five failures in a row.**  For every interval that is not
zero there is a checker, and whatever comes of its probes,

* it gives up after the probe by which five in a row have failed for the first time, and after no
  other: until then it makes a probe in each turn, and after it none;
* if it has given up, it tells of five failures;
* it goes on for ever just if there is a success among any five probes in a row. -/
theorem gives_up_exactly_at_five {interval : Duration} (hinterval : interval.isZero = false) :
    ∃ checker, Checker.start? interval = some checker ∧ ∀ outcomes : Nat → Outcome,
      (∀ made, checker.GivesUpAfter outcomes made ↔
        FiveFailed outcomes made ∧ ∀ earlier < made, ¬FiveFailed outcomes earlier) ∧
      (∀ turns failures made,
        checker.watch (probeOf outcomes) turns 0 = (.unhealthy failures, made) →
          failures = 5 ∧ checker.GivesUpAfter outcomes made) ∧
      (checker.GoesOn outcomes ↔
        ∀ first, ∃ i, first ≤ i ∧ i < first + 5 ∧ outcomes i = .success) := by
  refine ⟨_, Checker.start?_eq_some hinterval, fun outcomes =>
    ⟨fun made => givesUpAfter_iff, fun turns failures made hunhealthy => ?_, goesOn_iff⟩⟩
  have hwatched := watched outcomes turns
  rw [hunhealthy] at hwatched
  cases hwatched with
  | unhealthy _ hfailed hfirst => exact ⟨rfl, givesUpAfter_iff.mpr ⟨hfailed, hfirst⟩⟩

section

/-- Four failures, a success, and failures from then on. -/
def lateRecovery (i : Nat) : Outcome := if i = 4 then .success else .failure

theorem lateRecovery_gives_up_at_ten : ∃ checker,
    Checker.start? ⟨0, 1⟩ = some checker ∧ checker.GivesUpAfter lateRecovery 10 := by
  have hinterval : (⟨0, 1⟩ : Duration).isZero = false := by decide
  obtain ⟨checker, hstart, hchecker⟩ := gives_up_exactly_at_five hinterval
  obtain ⟨hgives, -, -⟩ := hchecker lateRecovery
  refine ⟨checker, hstart, (hgives 10).mpr ⟨⟨by decide, by decide⟩, ?_⟩⟩
  rintro earlier hearlier ⟨hmade, hfailed⟩
  cases hfailed 4 (by omega) (by omega)

end

end Gatehouse.Health
