import Gatehouse.Proofs.Certificate.Delaying
import Mathlib.Data.Nat.Find

/-!
# Certificates do not delay each other

How long a use waits is decided by the uses of the same certificate: it waits if the certificate is
fresh and no use of it that was fresh arrived five seconds earlier or more.  Uses of old
certificates leave no trace, so that they can be taken out of a run; what is left is a run in which
the certificate is fresh whenever it is used.  So in two runs with the same uses of a certificate
these wait the same time, whatever the uses of other certificates are.

    Call.waitAmong              : how long a call waits, by the calls for its certificate alone
    Delayer.freshOnly           : a delayer without the uses of old certificates
    Delayer.exists_run_freshOnly : it comes of a run without them
    Delayer.wait_eq_waitAmong   : how long a use waits, in every run
    Delayer.others_do_not_delay : two runs with the same calls for one certificate
-/

namespace Gatehouse.Certificate

/-- A use as it is asked for: when it arrives, and of which certificate. -/
structure Call where
  arrival : Nat
  /-- The moment of the day at which it arrives. -/
  wall : WallTime
  timing : Timing
deriving DecidableEq, Repr

namespace Call

/-- Whether the certificate is fresh when the call arrives. -/
def isFresh (c : Call) : Bool := c.timing.isFresh c.wall

/-- How long a call waits, when the calls for its certificate are those of a list.  It waits if the
certificate is fresh and the call comes before the window ends that opens when the first fresh call
is over. -/
def waitAmong (cs : List Call) (c : Call) : Nat :=
  if c.isFresh = true ∧ ∀ first ∈ cs, first.isFresh = true →
    c.arrival < first.arrival + firstUseDelay + repeatWindow then firstUseDelay else 0

theorem waitAmong_congr {cs cs' : List Call} (h : ∀ c, c ∈ cs ↔ c ∈ cs') (c : Call) :
    c.waitAmong cs = c.waitAmong cs' := by
  simp only [waitAmong, h]

end Call

namespace Use

/-- What was asked for. -/
def call (u : Use) : Call := ⟨u.arrival, u.wall, u.timing⟩

/-- Whether the certificate was fresh when the use arrived. -/
def isFresh (u : Use) : Bool := u.call.isFresh

end Use

theorem exists_filter_set {α : Type} {p : α → Bool} {l : List α} {n : Nat} {a b : α}
    (ha : l[n]? = some a) (hpa : p a = true) (hpb : p b = true) :
    ∃ m, (l.filter p)[m]? = some a ∧ (l.set n b).filter p = (l.filter p).set m b := by
  induction l generalizing n with
  | nil => cases ha
  | cons c l ih =>
    cases n with
    | zero =>
      obtain rfl : c = a := Option.some.inj ha
      refine ⟨0, ?_, ?_⟩
      · rw [List.filter_cons_of_pos hpa]
        rfl
      · rw [List.set_cons_zero, List.filter_cons_of_pos hpa, List.filter_cons_of_pos hpb]
        rfl
    | succ n =>
      obtain ⟨m, hm, hset⟩ := ih ha
      by_cases hpc : p c = true
      · refine ⟨m + 1, ?_, ?_⟩
        · rw [List.filter_cons_of_pos hpc]
          exact hm
        · rw [List.set_cons_succ, List.filter_cons_of_pos hpc, List.filter_cons_of_pos hpc, hset]
          rfl
      · refine ⟨m, ?_, ?_⟩
        · rw [List.filter_cons_of_neg hpc]
          exact hm
        · rw [List.set_cons_succ, List.filter_cons_of_neg hpc, List.filter_cons_of_neg hpc, hset]

namespace Delayer

/-! ## Without old certificates -/

/-- The delayer without the uses of old certificates. -/
def freshOnly (d : Delayer) : Delayer := { d with uses := d.uses.filter Use.isFresh }

/-- Uses of old certificates are not held. -/
def OldAreFree (d : Delayer) : Prop := ∀ u ∈ d.uses, u.isFresh = false → u.hold = .none

theorem newUse_old (d : Delayer) {wall : WallTime} {timing : Timing}
    (h : timing.isFresh wall = false) : (d.newUse wall timing).hold = .none := by
  show (d.state.arrive d.now wall timing).2 = .none
  rw [DelayState.arrive_old _ _ h]

theorem oldAreFree_of_steps {d d' : Delayer} {e : Event} (hd : d.OldAreFree) (h : Steps d e d') :
    d'.OldAreFree := by
  cases h with
  | arrived wall timing =>
    intro u hu hstale
    rcases mem_uses_arrive.mp hu with hu | rfl
    · exact hd u hu hstale
    · exact d.newUse_old hstale
  | @woke n u hn =>
    intro v hv hstale
    rcases mem_uses_wake hv with hv | rfl
    · exact hd v hv hstale
    · exact hd u (List.mem_of_getElem? hn) hstale
  | passed => exact hd

theorem freshOnly_arrive_old (d : Delayer) {wall : WallTime} {timing : Timing}
    (h : timing.isFresh wall = false) : (d.arrive wall timing).freshOnly = d.freshOnly := by
  have hstate : (d.arrive wall timing).state = d.state :=
    congrArg Prod.fst (DelayState.arrive_old d.state d.now h)
  have hstale : (d.newUse wall timing).isFresh = false := h
  have huses : (d.uses ++ [d.newUse wall timing]).filter Use.isFresh =
      d.uses.filter Use.isFresh := by
    rw [List.filter_append, List.filter_cons_of_neg (Bool.not_eq_true _ ▸ hstale), List.filter_nil,
      List.append_nil]
  show Delayer.mk d.now (d.arrive wall timing).state _ = _
  exact hstate ▸ congrArg (Delayer.mk d.now d.state) huses

theorem freshOnly_arrive_fresh (d : Delayer) {wall : WallTime} {timing : Timing}
    (h : timing.isFresh wall = true) :
    (d.arrive wall timing).freshOnly = d.freshOnly.arrive wall timing := by
  have hfresh : (d.newUse wall timing).isFresh = true := h
  have huses : (d.uses ++ [d.newUse wall timing]).filter Use.isFresh =
      d.uses.filter Use.isFresh ++ [d.newUse wall timing] := by
    rw [List.filter_append, List.filter_cons_of_pos hfresh, List.filter_nil]
  exact congrArg (Delayer.mk d.now (d.arrive wall timing).state) huses

theorem exists_freshOnly_wake {d : Delayer} {n : Nat} {u : Use} (hn : d.uses[n]? = some u)
    (hfresh : u.isFresh = true) :
    ∃ m, d.freshOnly.uses[m]? = some u ∧ (d.wake n u).freshOnly = d.freshOnly.wake m u := by
  have hreturned : Use.isFresh { u with returned := some d.now } = true := hfresh
  obtain ⟨m, hm, huses⟩ := exists_filter_set hn hfresh hreturned
  exact ⟨m, hm, congrArg (Delayer.mk d.now (d.wake n u).state) huses⟩

/-- A step of the delayer is one of the delayer without old certificates too, or none at all. -/
theorem freshOnly_of_steps {d d' : Delayer} {e : Event} (hontime : ∀ u ∈ d.uses, d.OnTime u)
    (hfree : d.OldAreFree) (h : Steps d e d') :
    d'.freshOnly = d.freshOnly ∨ ∃ e', Steps d.freshOnly e' d'.freshOnly := by
  cases h with
  | arrived wall timing =>
    cases hfresh : timing.isFresh wall with
    | false => exact .inl (d.freshOnly_arrive_old hfresh)
    | true =>
      right
      rw [d.freshOnly_arrive_fresh hfresh]
      exact ⟨_, .arrived wall timing⟩
  | @woke n u hn hheld hdue =>
    have hu : u ∈ d.uses := List.mem_of_getElem? hn
    have hfresh : u.isFresh = true := by
      by_contra hstale
      exact ((hontime u hu).2.1 hheld).1 (hfree u hu (Bool.eq_false_iff.mpr hstale))
    obtain ⟨m, hm, hwake⟩ := exists_freshOnly_wake hn hfresh
    right
    rw [hwake]
    exact ⟨_, .woke hm hheld hdue⟩
  | passed h => exact .inr ⟨_, .passed fun u hu => h u (List.mem_filter.mp hu).1⟩

/-- **Uses of old certificates leave no trace**: what is left without them comes of a run too. -/
theorem exists_run_freshOnly {now : Nat} {events : List Event} {d : Delayer}
    (h : run? (start now) events = some d) :
    d.OldAreFree ∧ ∃ events', run? (start now) events' = some d.freshOnly := by
  have hall := run?_keeps
    (fun d => (∀ u ∈ d.uses, d.OnTime u) ∧ d.OldAreFree ∧
      ∃ events', run? (start now) events' = some d.freshOnly)
    (fun d e d' ⟨hontime, hfree, events', hrun⟩ hstep => by
      refine ⟨onTime_of_steps hontime hstep, oldAreFree_of_steps hfree hstep, ?_⟩
      obtain hsame | ⟨e', hstep'⟩ := freshOnly_of_steps hontime hfree hstep
      · exact ⟨events', hsame ▸ hrun⟩
      · exact ⟨events' ++ [e'], run?_append.mpr ⟨_, hrun,
          run?_cons.mpr ⟨_, step?_eq_some.mpr hstep', rfl⟩⟩⟩)
    ⟨onTime_start now, fun _ hu => absurd hu List.not_mem_nil, [], rfl⟩ h
  exact hall.2

/-! ## By the uses of one certificate -/

def callsOf (d : Delayer) (serial : String) : List Call :=
  (d.uses.filter (·.timing.serial = serial)).map Use.call

/-- The calls for one certificate, with how long each of them waits. -/
def waitsOf (d : Delayer) (serial : String) : List (Call × Nat) :=
  (d.uses.filter (·.timing.serial = serial)).map fun u => (u.call, u.hold.wait)

/-- The certificate does not expire before the last use of any. -/
def Lasts (d : Delayer) (serial : String) : Prop :=
  ∀ u ∈ d.uses, u.timing.serial = serial → ∀ v ∈ d.uses, v.wall < u.timing.notAfter

instance (d : Delayer) (serial : String) : Decidable (d.Lasts serial) :=
  inferInstanceAs (Decidable (∀ u ∈ d.uses, _ → ∀ v ∈ d.uses, _))

theorem mem_callsOf {d : Delayer} {serial : String} {c : Call} :
    c ∈ d.callsOf serial ↔ ∃ u ∈ d.uses, u.timing.serial = serial ∧ u.call = c := by
  simp [callsOf, and_assoc]

theorem Lasts.steady_freshOnly {d : Delayer} {serial : String} (h : d.Lasts serial) :
    d.freshOnly.Steady serial := by
  intro u hu hserial
  obtain ⟨hu, hfresh⟩ := List.mem_filter.mp hu
  exact ⟨hfresh, fun v hv => h u hu hserial v (List.mem_filter.mp hv).1⟩

/-- Of the fresh uses of a certificate one arrived first. -/
theorem exists_first {d : Delayer} {serial : String} {u : Use} (hu : u ∈ d.freshOnly.uses)
    (hserial : u.timing.serial = serial) :
    ∃ first ∈ d.freshOnly.uses, first.timing.serial = serial ∧
      ∀ v ∈ d.freshOnly.uses, v.timing.serial = serial → first.arrival ≤ v.arrival := by
  classical
  have hsome : ∃ time, ∃ first ∈ d.freshOnly.uses,
      first.timing.serial = serial ∧ first.arrival = time := ⟨_, u, hu, hserial, rfl⟩
  obtain ⟨first, hfirst, hown, harrival⟩ := Nat.find_spec hsome
  refine ⟨first, hfirst, hown, fun v hv hv' => harrival ▸ Nat.find_min' hsome ⟨v, hv, hv', rfl⟩⟩

theorem wait_of_ne_none {hold : Hold} (h : hold ≠ .none) : hold.wait = firstUseDelay := by
  cases hold with
  | none => exact absurd rfl h
  | firstUse => rfl
  | again => rfl

/-- **How long a use waits** depends on the calls for its certificate, as long as that lasts. -/
theorem wait_eq_waitAmong {now : Nat} {events : List Event} {d : Delayer} {serial : String}
    (h : run? (start now) events = some d) (hlasts : d.Lasts serial) {u : Use} (hu : u ∈ d.uses)
    (hserial : u.timing.serial = serial) :
    u.hold.wait = u.call.waitAmong (d.callsOf serial) := by
  obtain ⟨hfree, events', hrun⟩ := exists_run_freshOnly h
  cases hfresh : u.isFresh with
  | false =>
    have hstale : u.call.isFresh ≠ true := Bool.eq_false_iff.mp hfresh
    rw [hfree u hu hfresh, Call.waitAmong, if_neg fun hboth => hstale hboth.1]
    rfl
  | true =>
    have hu' : u ∈ d.freshOnly.uses := List.mem_filter.mpr ⟨hu, hfresh⟩
    obtain ⟨first, hfirst, hown, hleast⟩ := exists_first hu' hserial
    have hhold := (kept_of_run hrun hlasts.steady_freshOnly).hold_eq_none_iff (onTime_of_run hrun)
      hfirst hown hleast hu' hserial
    have hcalls : (∀ c ∈ d.callsOf serial, c.isFresh = true →
        u.arrival < c.arrival + firstUseDelay + repeatWindow) ↔
        u.arrival < first.arrival + firstUseDelay + repeatWindow := by
      obtain ⟨hfirst, hfirstfresh⟩ := List.mem_filter.mp hfirst
      constructor
      · intro hall
        exact hall first.call (mem_callsOf.mpr ⟨first, hfirst, hown, rfl⟩) hfirstfresh
      · intro hsoon c hc hcfresh
        obtain ⟨v, hv, hv', rfl⟩ := mem_callsOf.mp hc
        have hle : first.arrival ≤ v.arrival := hleast v (List.mem_filter.mpr ⟨hv, hcfresh⟩) hv'
        show u.arrival < v.arrival + _ + _
        omega
    by_cases hsoon : u.arrival < first.arrival + firstUseDelay + repeatWindow
    · rw [Call.waitAmong, if_pos ⟨hfresh, hcalls.mpr hsoon⟩]
      exact wait_of_ne_none fun hnone => absurd (hhold.mp hnone) (Nat.not_le.mpr hsoon)
    · rw [Call.waitAmong, if_neg fun hboth => hsoon (hcalls.mp hboth.2),
        hhold.mpr (Nat.not_lt.mp hsoon)]
      rfl

/-- What the calls for one certificate wait is told by these calls alone. -/
theorem waitsOf_eq {now : Nat} {events : List Event} {d : Delayer} {serial : String}
    (h : run? (start now) events = some d) (hlasts : d.Lasts serial) :
    d.waitsOf serial =
      (d.callsOf serial).map fun c => (c, c.waitAmong (d.callsOf serial)) := by
  rw [callsOf, List.map_map]
  refine List.map_congr_left fun u hu => Prod.ext rfl ?_
  obtain ⟨hu, hserial⟩ := List.mem_filter.mp hu
  exact wait_eq_waitAmong h hlasts hu (of_decide_eq_true hserial)

/-- A use returns when it has waited, and not before. -/
theorem OnTime.returned_iff {d : Delayer} {u : Use} (h : d.OnTime u) :
    u.returned = none ∧ d.now ≤ u.arrival + u.hold.wait ∨
      u.returned = some (u.arrival + u.hold.wait) := by
  cases hr : u.returned with
  | none => exact .inl ⟨rfl, (h.2.1 hr).2⟩
  | some r => exact .inr (congrArg some (h.2.2 r hr))

/-- **Certificates do not delay each other.**  Let two delayers, whenever they were made, get the
same calls for one certificate, at the same times, and any calls for others; in neither run does the
certificate expire.  Then

* the calls for it wait the same time in both runs;
* so a call is over at the same time in both, if it is over in both: in each run a call that arrived
  returns when it has waited that long. -/
theorem others_do_not_delay {now now' : Nat} {events events' : List Event} {d d' : Delayer}
    {serial : String} (h : run? (start now) events = some d)
    (h' : run? (start now') events' = some d') (hlasts : d.Lasts serial)
    (hlasts' : d'.Lasts serial) (hsame : (d.callsOf serial).Perm (d'.callsOf serial)) :
    (d.waitsOf serial).Perm (d'.waitsOf serial) ∧
    ∀ u ∈ d.uses, ∀ u' ∈ d'.uses, u.timing.serial = serial → u.call = u'.call →
      u.hold.wait = u'.hold.wait ∧
      (u.returned = none ∧ d.now ≤ u.arrival + u.hold.wait ∨
        u.returned = some (u.arrival + u.hold.wait)) ∧
      (u'.returned = none ∧ d'.now ≤ u.arrival + u.hold.wait ∨
        u'.returned = some (u.arrival + u.hold.wait)) := by
  have hwait (c : Call) : c.waitAmong (d.callsOf serial) = c.waitAmong (d'.callsOf serial) :=
    Call.waitAmong_congr (fun _ => hsame.mem_iff) c
  constructor
  · rw [waitsOf_eq h hlasts, waitsOf_eq h' hlasts']
    simp only [hwait]
    exact hsame.map _
  · intro u hu u' hu' hserial hcall
    have harrival : u.arrival = u'.arrival := congrArg Call.arrival hcall
    have hserial' : u'.timing.serial = serial :=
      (congrArg (·.timing.serial) hcall).symm.trans hserial
    have hequal : u.hold.wait = u'.hold.wait := by
      rw [wait_eq_waitAmong h hlasts hu hserial, hcall, hwait,
        ← wait_eq_waitAmong h' hlasts' hu' hserial']
    refine ⟨hequal, (onTime_of_run h u hu).returned_iff, ?_⟩
    rw [harrival, hequal]
    exact (onTime_of_run h' u' hu').returned_iff

section

/-- Three calls for one certificate; the last comes five seconds after the first. -/
def nightCalls : List Call :=
  [⟨3599000, .ofSeconds 3599, newCertificate⟩, ⟨3602000, .ofSeconds 3602, newCertificate⟩,
    ⟨3604000, .ofSeconds 3604, newCertificate⟩]

/-- These calls alone, of a delayer made just before. -/
def quietNight : List Event :=
  [.arrived (.ofSeconds 3599) newCertificate, .passed 2000, .woke 0, .passed 1000,
    .arrived (.ofSeconds 3602) newCertificate, .passed 2000, .woke 1,
    .arrived (.ofSeconds 3604) newCertificate]

def briefCertificate : Timing := ⟨"0c", .ofSeconds 0, .ofSeconds 2⟩

/-- The calls come to a delayer that was made an hour before.  Another certificate is used, expires
and is forgotten while they wait. -/
def restlessNight : List Event :=
  [.arrived (.ofSeconds 1) briefCertificate, .passed 2000, .woke 0, .passed 3597000,
    .arrived (.ofSeconds 3599) newCertificate, .passed 1500,
    .arrived (.ofSeconds 3600) briefCertificate, .passed 500, .woke 1, .passed 1000,
    .arrived (.ofSeconds 3602) newCertificate, .passed 500, .woke 2, .passed 1500, .woke 3,
    .arrived (.ofSeconds 3604) newCertificate]

theorem restlessNight_waits_as_quietNight : ∃ d d',
    run? (start 3599000) quietNight = some d ∧ run? (start 0) restlessNight = some d' ∧
    d.callsOf "0a" = nightCalls ∧ d'.callsOf "0a" = nightCalls ∧
    (d.waitsOf "0a").map (·.2) = [2000, 2000, 0] ∧ (d.waitsOf "0a").Perm (d'.waitsOf "0a") := by
  have hquiet : ((run? (start 3599000) quietNight).any fun d => d.Lasts "0a" &&
      d.callsOf "0a" = nightCalls && (d.waitsOf "0a").map (·.2) = [2000, 2000, 0]) = true := by
    decide +kernel
  have hrestless : ((run? (start 0) restlessNight).any fun d => d.Lasts "0a" &&
      d.callsOf "0a" = nightCalls) = true := by
    decide +kernel
  obtain ⟨d, hd, hquiet⟩ := (Option.any_eq_true _ _).mp hquiet
  obtain ⟨d', hd', hrestless⟩ := (Option.any_eq_true _ _).mp hrestless
  simp only [Bool.and_eq_true, decide_eq_true_eq] at hquiet hrestless
  obtain ⟨⟨hlasts, hcalls⟩, hwaits⟩ := hquiet
  obtain ⟨hlasts', hcalls'⟩ := hrestless
  obtain ⟨hsame, -⟩ := others_do_not_delay hd hd' hlasts hlasts'
    (List.Perm.of_eq (hcalls.trans hcalls'.symm))
  exact ⟨d, d', hd, hd', hcalls, hcalls', hwaits, hsame⟩

end

end Delayer

end Gatehouse.Certificate
