import Gatehouse.Certificate.Delay
import Gatehouse.Proofs.Tables

/-!
# How long uses of fresh certificates wait

However many uses there are at the same time, and of however many certificates, the first one of
each certificate decides.  When it is over the certificate is noted, and none that wakes later
changes what was noted; so all that arrive within five seconds from it are held, for two seconds
each, and those that arrive later are not.

    DelayState.find?_sweep, find?_wake : what is known of a certificate that has not expired stays
    Delayer.Steps                      : all that can happen to a delayer
    Delayer.OnTime                     : uses are over when they are due
    Delayer.Kept                       : the first use of a certificate decides for the later ones
    Delayer.neither_early_nor_late     : how long each use waits, in every run
-/

namespace Gatehouse.Certificate

/-! ## What is known of certificates -/

section

variable {entries : List (String × DelayEntry)} {serial : String}

theorem lookup_filter_live {wall : WallTime}
    (h : ∀ e, entries.lookup serial = some e → wall < e.expire) :
    (entries.filter fun e => wall < e.2.expire).lookup serial = entries.lookup serial := by
  induction entries with
  | nil => rfl
  | cons entry entries ih =>
    obtain ⟨key, e⟩ := entry
    by_cases hkey : serial = key
    · subst hkey
      have hlive : wall < e.expire := h e List.lookup_cons_self
      rw [List.filter_cons_of_pos (by simpa using hlive), List.lookup_cons_self,
        List.lookup_cons_self]
    · rw [lookup_cons_of_ne hkey] at h ⊢
      rw [← ih h, List.filter_cons]
      split
      · exact lookup_cons_of_ne hkey
      · rfl

end

namespace DelayState

/-- Expired certificates are forgotten, and no others. -/
theorem find?_sweep {s : DelayState} {now : Nat} {wall : WallTime} {serial : String}
    (h : ∀ e, s.find? serial = some e → wall < e.expire) :
    (s.sweep now wall).find? serial = s.find? serial := by
  unfold sweep
  split
  · rfl
  · exact lookup_filter_live h

theorem find?_note (s : DelayState) (noted serial : String) (e : DelayEntry) :
    (s.note noted e).find? serial = if serial = noted then some e else s.find? serial := by
  show (s.entries.filter (·.1 ≠ noted) ++ [(noted, e)]).lookup serial = _
  rw [List.lookup_append]
  split
  · next h =>
    subst h
    have hnone : (s.entries.filter (·.1 ≠ serial)).lookup serial = none := by
      rw [List.lookup_eq_none_iff]
      intro p hp
      have hne : p.1 ≠ serial := of_decide_eq_true (List.mem_filter.mp hp).2
      exact bne_iff_ne.mpr hne.symm
    rw [hnone, Option.none_or, List.lookup_cons_self]
  · next h =>
    rw [lookup_filter_ne h, lookup_cons_of_ne h, List.lookup_nil, Option.or_none]
    rfl

/-- What wakes is noted, unless something was before. -/
theorem find?_wake (s : DelayState) (now : Nat) (t : Timing) (serial : String) :
    (s.wake now t).find? serial =
      if serial = t.serial then some ((s.find? serial).getD ⟨now, t.notAfter⟩)
      else s.find? serial := by
  unfold wake
  split
  · next e he =>
    split
    · next h => rw [h, he, Option.getD_some]
    · rfl
  · next he =>
    rw [find?_note]
    split
    · next h => rw [h, he, Option.getD_none]
    · rfl

/-- A use of an old certificate is not held, and leaves everything as it is. -/
theorem arrive_old (s : DelayState) (now : Nat) {wall : WallTime} {t : Timing}
    (h : t.isFresh wall = false) : s.arrive now wall t = (s, .none) := by
  simp [arrive, h]

/-- How a use of a fresh certificate is held. -/
theorem arrive_fresh (s : DelayState) (now : Nat) {wall : WallTime} {t : Timing}
    (h : t.isFresh wall = true) : s.arrive now wall t =
      (s.sweep now wall, match (s.sweep now wall).find? t.serial with
        | none => .firstUse
        | some e => if now < e.firstSeen + repeatWindow then .again else .none) := by
  simp only [arrive, h]
  rfl

/-- An arrival changes nothing of what is known of a certificate that has not expired. -/
theorem find?_arrive {s : DelayState} {now : Nat} {wall : WallTime} {t : Timing} {serial : String}
    (h : ∀ e, s.find? serial = some e → wall < e.expire) :
    (s.arrive now wall t).1.find? serial = s.find? serial := by
  cases hfresh : t.isFresh wall with
  | false => rw [arrive_old s now hfresh]
  | true =>
    rw [arrive_fresh s now hfresh]
    exact find?_sweep h

end DelayState

namespace Delayer

/-! ## Steps -/

/-- All that can happen to a delayer. -/
inductive Steps (d : Delayer) : Event → Delayer → Prop where
  | arrived (wall : WallTime) (timing : Timing) :
      Steps d (.arrived wall timing) (d.arrive wall timing)
  | woke {n : Nat} {u : Use} (hu : d.uses[n]? = some u) (hheld : u.returned = none)
      (hdue : u.due ≤ d.now) : Steps d (.woke n) (d.wake n u)
  | passed {time : Nat} (h : ∀ u ∈ d.uses, u.returned = none → d.now + time ≤ u.due) :
      Steps d (.passed time) { d with now := d.now + time }

theorem lets_iff {time : Nat} {u : Use} :
    lets time u = true ↔ (u.returned = none → time ≤ u.due) := by
  unfold lets
  cases u.returned <;> simp

theorem step?_eq_some {d d' : Delayer} {e : Event} : d.step? e = some d' ↔ Steps d e d' := by
  constructor
  · intro h
    cases e with
    | arrived wall timing =>
      cases h
      exact .arrived wall timing
    | woke n =>
      obtain ⟨u, hu, h⟩ := Option.bind_eq_some_iff.mp h
      split at h
      · next hwakes =>
        cases h
        simp only [Bool.and_eq_true, Option.isNone_iff_eq_none, decide_eq_true_eq] at hwakes
        exact .woke hu hwakes.1 hwakes.2
      · cases h
    | passed time =>
      simp only [step?] at h
      split at h
      · next hlets =>
        cases h
        exact .passed fun u hu => lets_iff.mp (List.all_eq_true.mp hlets u hu)
      · cases h
  · intro h
    cases h with
    | arrived => rfl
    | woke hu hheld hdue => simp [step?, hu, hheld, hdue]
    | passed h =>
      have hlets : d.uses.all (lets (d.now + _)) = true :=
        List.all_eq_true.mpr fun u hu => lets_iff.mpr (h u hu)
      simp [step?, hlets]

theorem run?_cons {d d' : Delayer} {e : Event} {events : List Event} :
    run? d (e :: events) = some d' ↔ ∃ m, d.step? e = some m ∧ run? m events = some d' := by
  unfold run?
  rw [List.foldlM_cons]
  exact Option.bind_eq_some_iff

theorem run?_append {d d' : Delayer} {events events' : List Event} :
    run? d (events ++ events') = some d' ↔
      ∃ m, run? d events = some m ∧ run? m events' = some d' := by
  unfold run?
  rw [List.foldlM_append]
  exact Option.bind_eq_some_iff

/-- What every step keeps, every run keeps. -/
theorem run?_keeps (inv : Delayer → Prop) (hstep : ∀ d e d', inv d → Steps d e d' → inv d')
    {d d' : Delayer} {events : List Event} (hd : inv d) (h : run? d events = some d') :
    inv d' := by
  induction events generalizing d with
  | nil =>
    obtain rfl : d = d' := Option.some.inj h
    exact hd
  | cons e events ih =>
    obtain ⟨m, hm, hrest⟩ := run?_cons.mp h
    exact ih (hstep d e m hd (step?_eq_some.mp hm)) hrest

def newUse (d : Delayer) (wall : WallTime) (timing : Timing) : Use :=
  let hold := (d.state.arrive d.now wall timing).2
  ⟨d.now, wall, timing, hold, if hold = .none then some d.now else none⟩

theorem mem_uses_arrive {d : Delayer} {wall : WallTime} {timing : Timing} {u : Use} :
    u ∈ (d.arrive wall timing).uses ↔ u ∈ d.uses ∨ u = d.newUse wall timing := by
  show u ∈ d.uses ++ [d.newUse wall timing] ↔ _
  rw [List.mem_append, List.mem_singleton]

theorem mem_uses_wake {d : Delayer} {n : Nat} {u v : Use} (h : v ∈ (d.wake n u).uses) :
    v ∈ d.uses ∨ v = { u with returned := some d.now } :=
  List.mem_or_eq_of_mem_set h

/-- A use stays when another one wakes, or it has woken. -/
theorem mem_uses_of_mem {d : Delayer} {n : Nat} {u v : Use} (hu : d.uses[n]? = some u)
    (hv : v ∈ d.uses) :
    v ∈ (d.wake n u).uses ∨ v = u ∧ { u with returned := some d.now } ∈ (d.wake n u).uses := by
  obtain ⟨i, hi⟩ := List.mem_iff_getElem?.mp hv
  by_cases hin : i = n
  · subst hin
    obtain rfl : v = u := Option.some.inj (hi.symm.trans hu)
    exact .inr ⟨rfl, List.mem_set (List.getElem?_eq_some_iff.mp hu).1 _⟩
  · left
    refine List.mem_iff_getElem?.mpr ⟨i, ?_⟩
    show (d.uses.set n _)[i]? = _
    rw [List.getElem?_set_ne (Ne.symm hin), hi]

/-! ## When uses are over -/

/-- A use that is held is not due yet, and one that is over was over when it was due. -/
def OnTime (d : Delayer) (u : Use) : Prop :=
  u.arrival ≤ d.now ∧ (u.returned = none → u.hold ≠ .none ∧ d.now ≤ u.due) ∧
    ∀ r, u.returned = some r → r = u.due

theorem onTime_newUse (d : Delayer) (wall : WallTime) (timing : Timing) :
    d.OnTime (d.newUse wall timing) := by
  refine ⟨Nat.le_refl _, fun hheld => ?_, fun r hr => ?_⟩
  · simp only [newUse] at hheld ⊢
    split at hheld
    · cases hheld
    · next hhold => exact ⟨hhold, Nat.le_add_right ..⟩
  · simp only [newUse] at hr ⊢
    split at hr
    · next hhold =>
      cases hr
      simp [Use.due, hhold, Hold.wait]
    · cases hr

theorem onTime_of_steps {d d' : Delayer} {e : Event} (hd : ∀ u ∈ d.uses, d.OnTime u)
    (h : Steps d e d') : ∀ u ∈ d'.uses, d'.OnTime u := by
  cases h with
  | arrived wall timing =>
    intro u hu
    rcases mem_uses_arrive.mp hu with hu | rfl
    · exact hd u hu
    · exact d.onTime_newUse wall timing
  | @woke n u hn hheld hdue =>
    have hu := hd u (List.mem_of_getElem? hn)
    intro v hv
    rcases mem_uses_wake hv with hv | rfl
    · exact hd v hv
    · refine ⟨hu.1, nofun, fun r hr => ?_⟩
      cases hr
      exact Nat.le_antisymm (hu.2.1 hheld).2 hdue
  | passed h =>
    intro u hu
    obtain ⟨harrival, hheld, hover⟩ := hd u hu
    exact ⟨Nat.le_add_right_of_le harrival, fun hr => ⟨(hheld hr).1, h u hu hr⟩, hover⟩

theorem onTime_start (now : Nat) : ∀ u ∈ (start now).uses, (start now).OnTime u :=
  fun _ hu => absurd hu List.not_mem_nil

/-- A use that is not held returns at once. -/
theorem OnTime.free {d : Delayer} {u : Use} (h : d.OnTime u) (hhold : u.hold = .none) :
    u.returned = some u.arrival := by
  cases hr : u.returned with
  | none => exact absurd hhold (h.2.1 hr).1
  | some r =>
    have hdue := h.2.2 r hr
    rw [Use.due, hhold] at hdue
    exact congrArg some hdue

/-- A use that is held returns after two seconds, or they are not over yet. -/
theorem OnTime.held {d : Delayer} {u : Use} (h : d.OnTime u) (hhold : u.hold ≠ .none) :
    u.returned = none ∧ d.now ≤ u.arrival + 2000 ∨ u.returned = some (u.arrival + 2000) := by
  have hdue : u.due = u.arrival + 2000 := by
    unfold Use.due
    cases hu : u.hold with
    | none => exact absurd hu hhold
    | firstUse => rfl
    | again => rfl
  rw [← hdue]
  cases hr : u.returned with
  | none => exact .inl ⟨rfl, (h.2.1 hr).2⟩
  | some r => exact .inr (congrArg some (h.2.2 r hr))

/-- **Uses are over when they are due**, in every run. -/
theorem onTime_of_run {now : Nat} {events : List Event} {d : Delayer}
    (h : run? (start now) events = some d) : ∀ u ∈ d.uses, d.OnTime u :=
  run?_keeps (fun d => ∀ u ∈ d.uses, d.OnTime u) (fun _ _ _ => onTime_of_steps) (onTime_start now) h

/-! ## The uses of one certificate -/

/-- The certificate stays fresh as long as it is used, and does not expire. -/
def Steady (d : Delayer) (serial : String) : Prop :=
  ∀ u ∈ d.uses, u.timing.serial = serial →
    u.timing.isFresh u.wall = true ∧ ∀ v ∈ d.uses, v.wall < u.timing.notAfter

theorem steady_of_steps {d d' : Delayer} {e : Event} {serial : String} (h : Steps d e d')
    (hd : d'.Steady serial) : d.Steady serial := by
  cases h with
  | arrived wall timing =>
    intro u hu hserial
    obtain ⟨hfresh, hlive⟩ := hd u (mem_uses_arrive.mpr (.inl hu)) hserial
    exact ⟨hfresh, fun v hv => hlive v (mem_uses_arrive.mpr (.inl hv))⟩
  | @woke n u hn =>
    intro v hv hserial
    have hlater : ∀ w ∈ d.uses, ∃ w' ∈ (d.wake n u).uses, w'.timing = w.timing ∧ w'.wall = w.wall :=
      fun w hw => by
        rcases mem_uses_of_mem hn hw with hw | ⟨rfl, hw⟩
        · exact ⟨w, hw, rfl, rfl⟩
        · exact ⟨_, hw, rfl, rfl⟩
    obtain ⟨v', hv', htiming, hwall⟩ := hlater v hv
    obtain ⟨hfresh, hlive⟩ := hd v' hv' (htiming ▸ hserial)
    refine ⟨htiming ▸ hwall ▸ hfresh, fun w hw => ?_⟩
    obtain ⟨w', hw', -, hwall'⟩ := hlater w hw
    exact hwall' ▸ htiming ▸ hlive w' hw'
  | passed => exact hd

/-- Before its first use is over, all uses of a certificate are held as first ones. -/
def Awaited (d : Delayer) (serial : String) : Prop :=
  ∀ u ∈ d.uses, u.timing.serial = serial → u.returned = none ∧ u.hold = .firstUse

/-- Once its first use is over, uses of a certificate are held within five seconds from when that
one arrived, and not later. -/
structure Decided (d : Delayer) (serial : String) (e : DelayEntry) (first : Use) : Prop where
  mem : first ∈ d.uses
  serial_eq : first.timing.serial = serial
  firstSeen : e.firstSeen = first.arrival + firstUseDelay
  expire : e.expire = first.timing.notAfter
  past : e.firstSeen ≤ d.now
  held : ∀ u ∈ d.uses, u.timing.serial = serial → first.arrival ≤ u.arrival ∧
    (u.hold = .none ↔ first.arrival + firstUseDelay + repeatWindow ≤ u.arrival)

/-- The first use of a certificate decides for the later ones. -/
structure Kept (d : Delayer) (serial : String) : Prop where
  awaited : d.state.find? serial = none → d.Awaited serial
  decided : ∀ e, d.state.find? serial = some e → ∃ first, d.Decided serial e first

theorem kept_start (now : Nat) (serial : String) : (start now).Kept serial where
  awaited _ _ hu := absurd hu List.not_mem_nil
  decided _ h := nomatch h

theorem hold_newUse {d : Delayer} {wall : WallTime} {timing : Timing}
    (hfresh : timing.isFresh wall = true) :
    (d.newUse wall timing).hold =
      match (d.arrive wall timing).state.find? timing.serial with
      | none => .firstUse
      | some e => if d.now < e.firstSeen + repeatWindow then .again else .none := by
  simp only [newUse, arrive, DelayState.arrive_fresh _ _ hfresh]

/-- What is known of a certificate that does not expire stays when uses arrive. -/
theorem Kept.find?_arrive {d : Delayer} {wall : WallTime} {timing : Timing} {serial : String}
    (hd : d.Kept serial) (hsteady : (d.arrive wall timing).Steady serial) :
    (d.arrive wall timing).state.find? serial = d.state.find? serial := by
  refine DelayState.find?_arrive fun e he => ?_
  obtain ⟨first, hfirst⟩ := hd.decided e he
  have hmem : first ∈ (d.arrive wall timing).uses := mem_uses_arrive.mpr (.inl hfirst.mem)
  have hlive := (hsteady first hmem hfirst.serial_eq).2 _ (mem_uses_arrive.mpr (.inr rfl))
  exact hfirst.expire ▸ hlive

theorem Kept.arrive {d : Delayer} {wall : WallTime} {timing : Timing} {serial : String}
    (hd : d.Kept serial) (hsteady : (d.arrive wall timing).Steady serial) :
    (d.arrive wall timing).Kept serial := by
  have hfind := hd.find?_arrive hsteady
  have hfresh : timing.serial = serial → timing.isFresh wall = true := fun hserial =>
    (hsteady (d.newUse wall timing) (mem_uses_arrive.mpr (.inr rfl)) hserial).1
  refine ⟨fun hentry u hu hserial => ?_, fun e hentry => ?_⟩
  · rw [hfind] at hentry
    rcases mem_uses_arrive.mp hu with hu | rfl
    · exact hd.awaited hentry u hu hserial
    · have hhold : (d.newUse wall timing).hold = .firstUse := by
        rw [hold_newUse (hfresh hserial), show timing.serial = serial from hserial, hfind, hentry]
      exact ⟨if_neg fun hnone => Hold.noConfusion (hhold.symm.trans hnone), hhold⟩
  · rw [hfind] at hentry
    obtain ⟨first, hfirst⟩ := hd.decided e hentry
    refine ⟨first, { hfirst with mem := mem_uses_arrive.mpr (.inl hfirst.mem), held := ?_ }⟩
    intro u hu hserial
    rcases mem_uses_arrive.mp hu with hu | rfl
    · exact hfirst.held u hu hserial
    · have hhold : (d.newUse wall timing).hold =
          if d.now < e.firstSeen + repeatWindow then .again else .none := by
        rw [hold_newUse (hfresh hserial), show timing.serial = serial from hserial, hfind, hentry]
      have harrived : first.arrival ≤ d.now :=
        Nat.le_trans (Nat.le_add_right ..) (hfirst.firstSeen ▸ hfirst.past)
      refine ⟨harrived, ?_⟩
      show _ ↔ first.arrival + firstUseDelay + repeatWindow ≤ d.now
      rw [hhold, ← hfirst.firstSeen]
      split
      · next hsoon => exact ⟨nofun, fun hlate => absurd hsoon (Nat.not_lt.mpr hlate)⟩
      · next hlate => exact ⟨fun _ => Nat.not_lt.mp hlate, fun _ => rfl⟩

/-- The first of the first uses that wakes was the first that arrived. -/
theorem Awaited.decides {d : Delayer} {n : Nat} {u : Use} {serial : String}
    (hd : d.Awaited serial) (hn : d.uses[n]? = some u) (hserial : u.timing.serial = serial)
    (hdue : u.due ≤ d.now) (hontime : ∀ u ∈ d.uses, d.OnTime u) :
    (d.wake n u).Decided serial ⟨d.now, u.timing.notAfter⟩ { u with returned := some d.now } := by
  have hu : u ∈ d.uses := List.mem_of_getElem? hn
  -- None of them is late, so none came earlier than the one that is due.
  have hlate : ∀ v ∈ d.uses, v.timing.serial = serial →
      v.arrival ≤ d.now ∧ d.now ≤ v.arrival + firstUseDelay := by
    intro v hv hv'
    obtain ⟨hheld, hfirst⟩ := hd v hv hv'
    obtain ⟨harrived, hlate, -⟩ := hontime v hv
    have hlate := (hlate hheld).2
    rw [Use.due, hfirst] at hlate
    exact ⟨harrived, hlate⟩
  have hover : d.now = u.arrival + firstUseDelay := by
    rw [Use.due, (hd u hu hserial).2] at hdue
    exact Nat.le_antisymm (hlate u hu hserial).2 hdue
  have hheld : ∀ v ∈ d.uses, v.timing.serial = serial → u.arrival ≤ v.arrival ∧
      (v.hold = .none ↔ u.arrival + firstUseDelay + repeatWindow ≤ v.arrival) := by
    intro v hv hv'
    obtain ⟨harrived, hsoon⟩ := hlate v hv hv'
    have hwindow : 0 < repeatWindow := by decide
    rw [(hd v hv hv').2]
    exact ⟨by omega, nofun, fun hafter => by omega⟩
  refine ⟨List.mem_set (List.getElem?_eq_some_iff.mp hn).1 _, hserial, hover, rfl, Nat.le_refl _,
    fun v hv hv' => ?_⟩
  rcases mem_uses_wake hv with hv | rfl
  · exact hheld v hv hv'
  · exact hheld u hu hserial

theorem Decided.wake {d : Delayer} {n : Nat} {u first : Use} {serial : String} {e : DelayEntry}
    (hd : d.Decided serial e first) (hn : d.uses[n]? = some u) :
    ∃ first, (d.wake n u).Decided serial e first := by
  have hheld : ∀ v ∈ (d.wake n u).uses, v.timing.serial = serial → first.arrival ≤ v.arrival ∧
      (v.hold = .none ↔ first.arrival + firstUseDelay + repeatWindow ≤ v.arrival) := by
    intro v hv hv'
    rcases mem_uses_wake hv with hv | rfl
    · exact hd.held v hv hv'
    · exact hd.held u (List.mem_of_getElem? hn) hv'
  rcases mem_uses_of_mem hn hd.mem with hmem | ⟨rfl, hmem⟩
  · exact ⟨first, { hd with mem := hmem, held := hheld }⟩
  · exact ⟨_, { hd with mem := hmem, held := hheld }⟩

/-- What is known of a certificate after a use has woken. -/
theorem find?_state_wake (d : Delayer) (n : Nat) (u : Use) (serial : String) :
    (d.wake n u).state.find? serial =
      if u.hold = .firstUse ∧ u.timing.serial = serial then
        some ((d.state.find? serial).getD ⟨d.now, u.timing.notAfter⟩)
      else d.state.find? serial := by
  unfold Delayer.wake
  by_cases hfirst : u.hold = .firstUse
  · simp only [hfirst, if_true, true_and, DelayState.find?_wake, eq_comm]
  · simp only [hfirst, if_false, false_and]

theorem Kept.wake {d : Delayer} {n : Nat} {u : Use} {serial : String} (hd : d.Kept serial)
    (hn : d.uses[n]? = some u) (hdue : u.due ≤ d.now) (hontime : ∀ u ∈ d.uses, d.OnTime u) :
    (d.wake n u).Kept serial := by
  cases hbefore : d.state.find? serial with
  | none =>
    have hawaited := hd.awaited hbefore
    by_cases hserial : u.timing.serial = serial
    · have hfirst := (hawaited u (List.mem_of_getElem? hn) hserial).2
      have hafter : (d.wake n u).state.find? serial = some ⟨d.now, u.timing.notAfter⟩ := by
        rw [find?_state_wake, if_pos ⟨hfirst, hserial⟩, hbefore, Option.getD_none]
      refine ⟨fun hentry => ?_, fun e hentry => ?_⟩
      · cases hafter.symm.trans hentry
      · cases hafter.symm.trans hentry
        exact ⟨_, hawaited.decides hn hserial hdue hontime⟩
    · have hafter : (d.wake n u).state.find? serial = none := by
        rw [find?_state_wake, if_neg fun h => hserial h.2, hbefore]
      refine ⟨fun _ v hv hv' => ?_, fun e hentry => ?_⟩
      · rcases mem_uses_wake hv with hv | rfl
        · exact hawaited v hv hv'
        · exact absurd hv' hserial
      · cases hafter.symm.trans hentry
  | some e =>
    obtain ⟨first, hfirst⟩ := hd.decided e hbefore
    have hafter : (d.wake n u).state.find? serial = some e := by
      rw [find?_state_wake, hbefore, Option.getD_some, ite_self]
    refine ⟨fun hentry => ?_, fun e' hentry => ?_⟩
    · cases hafter.symm.trans hentry
    · cases hafter.symm.trans hentry
      exact hfirst.wake hn

theorem Kept.of_steps {d d' : Delayer} {e : Event} {serial : String} (hd : d.Kept serial)
    (hontime : ∀ u ∈ d.uses, d.OnTime u) (hsteady : d'.Steady serial) (h : Steps d e d') :
    d'.Kept serial := by
  cases h with
  | arrived => exact hd.arrive hsteady
  | woke hn _ hdue => exact hd.wake hn hdue hontime
  | passed =>
    refine ⟨hd.awaited, fun e hentry => ?_⟩
    obtain ⟨first, hfirst⟩ := hd.decided e hentry
    exact ⟨first, { hfirst with past := Nat.le_add_right_of_le hfirst.past }⟩

/-- **The first use of a certificate decides for the later ones**, in every run. -/
theorem kept_of_run {now : Nat} {events : List Event} {d : Delayer} {serial : String}
    (h : run? (start now) events = some d) (hsteady : d.Steady serial) : d.Kept serial := by
  have hall := run?_keeps
    (fun d => (∀ u ∈ d.uses, d.OnTime u) ∧ (d.Steady serial → d.Kept serial))
    (fun d e d' ⟨hontime, hkept⟩ hstep => ⟨onTime_of_steps hontime hstep, fun hsteady =>
      (hkept (steady_of_steps hstep hsteady)).of_steps hontime hsteady hstep⟩)
    ⟨onTime_start now, fun _ => kept_start now serial⟩ h
  exact hall.2 hsteady

/-- The uses that are held are those that arrive within five seconds from the first. -/
theorem Kept.hold_eq_none_iff {d : Delayer} {serial : String} (hd : d.Kept serial)
    (hontime : ∀ u ∈ d.uses, d.OnTime u) {first u : Use} (hfirst : first ∈ d.uses)
    (hserial : first.timing.serial = serial)
    (hleast : ∀ u ∈ d.uses, u.timing.serial = serial → first.arrival ≤ u.arrival)
    (hu : u ∈ d.uses) (hu' : u.timing.serial = serial) :
    u.hold = .none ↔ first.arrival + firstUseDelay + repeatWindow ≤ u.arrival := by
  cases hentry : d.state.find? serial with
  | none =>
    -- Nobody has woken, so it is too early for any use that is not held.
    have hawaited := hd.awaited hentry
    obtain ⟨hheld, hhold⟩ := hawaited first hfirst hserial
    have hsoon := ((hontime first hfirst).2.1 hheld).2
    rw [Use.due, hhold] at hsoon
    have harrived : u.arrival ≤ first.arrival + firstUseDelay :=
      Nat.le_trans (hontime u hu).1 hsoon
    have hwindow : 0 < repeatWindow := by decide
    rw [(hawaited u hu hu').2]
    exact ⟨nofun, fun hlate => by omega⟩
  | some e =>
    obtain ⟨first', hfirst'⟩ := hd.decided e hentry
    have hsame : first'.arrival = first.arrival :=
      Nat.le_antisymm (hfirst'.held first hfirst hserial).1
        (hleast first' hfirst'.mem hfirst'.serial_eq)
    rw [(hfirst'.held u hu hu').2, hsame]

/-! ## All uses return -/

def finished (u : Use) : Use := { u with returned := some u.due }

/-- Of the uses that are held one is due first. -/
theorem exists_earliest {uses : List Use} (hheld : 0 < uses.countP (·.returned.isNone)) :
    ∃ u ∈ uses, u.returned = none ∧ ∀ v ∈ uses, v.returned = none → u.due ≤ v.due := by
  let dues := (uses.filter (·.returned.isNone)).map Use.due
  have hdues : ∀ v ∈ uses, v.returned = none → v.due ∈ dues := fun v hv hvheld =>
    List.mem_map.mpr ⟨v, List.mem_filter.mpr ⟨hv, Option.isNone_iff_eq_none.mpr hvheld⟩, rfl⟩
  cases hmin : dues.min? with
  | none =>
    obtain ⟨v, hv, hvheld⟩ := List.countP_pos_iff.mp hheld
    have hnil : dues = [] := List.min?_eq_none_iff.mp hmin
    have hmem := hdues v hv (Option.isNone_iff_eq_none.mp hvheld)
    exact absurd (hnil ▸ hmem) List.not_mem_nil
  | some time =>
    obtain ⟨hmem, hleast⟩ := List.min?_eq_some_iff.mp hmin
    obtain ⟨u, hu, rfl⟩ := List.mem_map.mp hmem
    obtain ⟨hu, huheld⟩ := List.mem_filter.mp hu
    exact ⟨u, hu, Option.isNone_iff_eq_none.mp huheld, fun v hv hvheld =>
      hleast _ (hdues v hv hvheld)⟩

/-- The use that is due first wakes when it is. -/
theorem exists_wake {d : Delayer} (hd : ∀ u ∈ d.uses, d.OnTime u)
    (hheld : 0 < d.uses.countP (·.returned.isNone)) :
    ∃ (n : Nat) (u : Use) (time : Nat) (d' : Delayer), d.uses[n]? = some u ∧ u.returned = none ∧
      run? d [.passed time, .woke n] = some d' ∧ d'.uses = d.uses.set n (finished u) := by
  obtain ⟨u, hu, huheld, hleast⟩ := exists_earliest hheld
  obtain ⟨n, hn⟩ := List.mem_iff_getElem?.mp hu
  have hlater : d.now + (u.due - d.now) = u.due := Nat.add_sub_cancel' ((hd u hu).2.1 huheld).2
  have hpassed : Steps d (.passed (u.due - d.now)) { d with now := d.now + (u.due - d.now) } :=
    .passed fun v hv hvheld => by
      rw [hlater]
      exact hleast v hv hvheld
  rw [hlater] at hpassed
  have hwoke : Steps { d with now := u.due } (.woke n) (wake { d with now := u.due } n u) :=
    .woke hn huheld (Nat.le_refl _)
  exact ⟨n, u, _, _, hn, huheld, run?_cons.mpr ⟨_, step?_eq_some.mpr hpassed,
    run?_cons.mpr ⟨_, step?_eq_some.mpr hwoke, rfl⟩⟩, rfl⟩

/-- **All uses return**, each when it is due, if no more arrive. -/
theorem exists_finished {d : Delayer} (hd : ∀ u ∈ d.uses, d.OnTime u) :
    ∃ more d', run? d more = some d' ∧ d'.uses = d.uses.map finished := by
  generalize hcount : d.uses.countP (·.returned.isNone) = count
  induction count generalizing d with
  | zero =>
    refine ⟨[], d, rfl, ?_⟩
    have hall : ∀ u ∈ d.uses, finished u = u := by
      intro u hu
      cases hreturned : u.returned with
      | none =>
        have hnone := List.countP_eq_zero.mp hcount u hu
        exact absurd (Option.isNone_iff_eq_none.mpr hreturned) hnone
      | some r => simp [finished, ← (hd u hu).2.2 r hreturned, ← hreturned]
    rw [List.map_congr_left hall, List.map_id']
  | succ count ih =>
    obtain ⟨n, u, time, m, hn, hheld, hm, huses⟩ := exists_wake hd (by omega)
    obtain ⟨hlt, hget⟩ := List.getElem?_eq_some_iff.mp hn
    have hm' : ∀ u ∈ m.uses, m.OnTime u :=
      run?_keeps (fun d => ∀ u ∈ d.uses, d.OnTime u) (fun _ _ _ => onTime_of_steps) hd hm
    have hless : m.uses.countP (·.returned.isNone) = count := by
      rw [huses, List.countP_set hlt, hget, hcount, hheld]
      rfl
    obtain ⟨more, d', hd', hfinished⟩ := ih hm' hless
    refine ⟨_, d', run?_append.mpr ⟨m, hm, hd'⟩, ?_⟩
    have hlt' : n < (d.uses.map finished).length := by rwa [List.length_map]
    have hself : finished (finished u) = (d.uses.map finished)[n] := by
      rw [List.getElem_map, hget]
      rfl
    rw [hfinished, huses, List.map_set, hself, List.set_getElem_self]

/-! ## All together -/

theorem step?_old (d : Delayer) {wall : WallTime} {timing : Timing}
    (h : timing.isFresh wall = false) :
    d.step? (.arrived wall timing) =
      some { d with uses := d.uses ++ [⟨d.now, wall, timing, .none, some d.now⟩] } := by
  simp only [step?, arrive, DelayState.arrive_old _ _ h]
  rfl

/-- **A fresh certificate is used neither too early nor too late.**  In every run,

* each use returns at once or after two seconds: none is held for longer, and all return in the end;
* a use of a certificate that was issued two hours ago or before returns at once, and nothing
  is noted;
* of a certificate that stays fresh and does not expire, all uses that arrive within five seconds
  from its first use are held for two seconds, so that none returns within two seconds from then, and
  all that arrive later return at once. -/
theorem neither_early_nor_late {now : Nat} {events : List Event} {d : Delayer}
    (h : run? (start now) events = some d) :
    (∀ u ∈ d.uses, (∀ r, u.returned = some r → r = u.arrival ∨ r = u.arrival + 2000) ∧
      (u.returned = none → d.now ≤ u.arrival + 2000)) ∧
    (∃ more d', run? d more = some d' ∧ d'.uses = d.uses.map finished) ∧
    (∀ before wall timing after, events = before ++ .arrived wall timing :: after →
      WallTime.ofSeconds (2 * 60 * 60) ≤ wall - timing.notBefore →
      ∃ m m', run? (start now) before = some m ∧ m.step? (.arrived wall timing) = some m' ∧
        m'.state = m.state ∧ m'.uses = m.uses ++ [⟨m.now, wall, timing, .none, some m.now⟩]) ∧
    (∀ serial, d.Steady serial → ∀ first ∈ d.uses, first.timing.serial = serial →
      (∀ u ∈ d.uses, u.timing.serial = serial → first.arrival ≤ u.arrival) →
      ∀ u ∈ d.uses, u.timing.serial = serial →
        (u.arrival < first.arrival + 5000 →
          u.returned = none ∨ u.returned = some (u.arrival + 2000)) ∧
        (first.arrival + 5000 ≤ u.arrival → u.returned = some u.arrival) ∧
        ∀ r, u.returned = some r → first.arrival + 2000 ≤ r) := by
  have hontime := onTime_of_run h
  refine ⟨fun u hu => ?_, exists_finished hontime, ?_, ?_⟩
  · by_cases hhold : u.hold = .none
    · simp [(hontime u hu).free hhold]
    · rcases (hontime u hu).held hhold with ⟨hr, hlate⟩ | hr
      · simp [hr, hlate]
      · simp [hr]
  · rintro before wall timing after rfl hold
    obtain ⟨m, hm, hrest⟩ := run?_append.mp h
    have hstale : timing.isFresh wall = false := decide_eq_false (Int.not_lt.mpr hold)
    exact ⟨m, _, hm, m.step?_old hstale, rfl, rfl⟩
  · intro serial hsteady first hfirst hserial hleast u hu hu'
    have hhold : u.hold = .none ↔ first.arrival + 5000 ≤ u.arrival :=
      (kept_of_run h hsteady).hold_eq_none_iff hontime hfirst hserial hleast hu hu'
    have harrived : first.arrival ≤ u.arrival := hleast u hu hu'
    by_cases hlate : first.arrival + 5000 ≤ u.arrival
    · have hreturned := (hontime u hu).free (hhold.mpr hlate)
      refine ⟨fun hsoon => by omega, fun _ => hreturned, fun r hr => ?_⟩
      obtain rfl := Option.some.inj (hreturned.symm.trans hr)
      omega
    · have hreturned := (hontime u hu).held fun h => hlate (hhold.mp h)
      refine ⟨fun _ => hreturned.imp_left And.left, fun h => absurd h hlate, fun r hr => ?_⟩
      rcases hreturned with ⟨hnone, -⟩ | hsome
      · cases hnone.symm.trans hr
      · obtain rfl := Option.some.inj (hsome.symm.trans hr)
        omega

section

/-- A certificate of the day on which the clock starts. -/
def newCertificate : Timing := ⟨"0a", .ofSeconds 0, .ofSeconds 7776000⟩

/-- One of the day before. -/
def oldCertificate : Timing := ⟨"0b", .ofSeconds (-86400), .ofSeconds 86400⟩

/-- The second use comes just before the first one wakes, the next ones just before and just after
five seconds are over. -/
def busyMorning : List Event :=
  [.arrived (.ofSeconds 1) newCertificate, .passed 500, .arrived (.ofSeconds 1) oldCertificate,
    .passed 1500, .arrived (.ofSeconds 3) newCertificate, .woke 0, .passed 2000, .woke 2,
    .passed 999, .arrived (.ofSeconds 5) newCertificate, .passed 1,
    .arrived (.ofSeconds 6) newCertificate]

def morningUses : List Use :=
  [⟨0, .ofSeconds 1, newCertificate, .firstUse, some 2000⟩,
    ⟨500, .ofSeconds 1, oldCertificate, .none, some 500⟩,
    ⟨2000, .ofSeconds 3, newCertificate, .firstUse, some 4000⟩,
    ⟨4999, .ofSeconds 5, newCertificate, .again, none⟩,
    ⟨5000, .ofSeconds 6, newCertificate, .none, some 5000⟩]

theorem busyMorning_neither_early_nor_late : ∃ d : Delayer,
    run? (start 0) busyMorning = some d ∧ d.uses = morningUses ∧ d.Steady "0a" ∧
    ∀ u ∈ morningUses, u.timing.serial = "0a" →
      (u.arrival < 5000 → u.returned = none ∨ u.returned = some (u.arrival + 2000)) ∧
      (5000 ≤ u.arrival → u.returned = some u.arrival) := by
  have hend : (run? (start 0) busyMorning).map (·.uses) = some morningUses := by decide +kernel
  obtain ⟨d, hd, huses⟩ := Option.map_eq_some_iff.mp hend
  have hsteady : d.Steady "0a" := by
    rw [Steady, huses]
    decide +kernel
  obtain ⟨-, -, -, hserial⟩ := neither_early_nor_late hd
  refine ⟨d, hd, huses, hsteady, fun u hu hu' => ?_⟩
  have hfirst : ⟨0, .ofSeconds 1, newCertificate, .firstUse, some 2000⟩ ∈ d.uses := by
    rw [huses]
    exact List.mem_cons_self
  obtain ⟨hsoon, hlate, -⟩ :=
    hserial "0a" hsteady _ hfirst rfl (fun _ _ _ => Nat.zero_le _) u (huses ▸ hu) hu'
  exact ⟨fun h => hsoon (by simpa using h), fun h => hlate (by simpa using h)⟩

end

end Delayer

end Gatehouse.Certificate
