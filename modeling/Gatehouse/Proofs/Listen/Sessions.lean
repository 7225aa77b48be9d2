import Gatehouse.Listen.Paced
import Gatehouse.Proofs.Listen.Sources

/-!
# The sessions of a reconnecting listener

One session follows the other: each is closed before the next dial begins, a dial begins only after
the task has rested since the last failure, and whoever is told of errors is told of each failure
once.

    Paced.Record, opened, closed, reported : what a task has done, and what of that concerns whom
    Paced.Proper                           : a record in which every entry fits what came before
    Reconnecting.Steps                     : all that a step of the task can do
    Paced.InTurn                           : what the task keeps to
    Paced.InTurn.task, Paced.InTurn.still  : and does, whatever happens
-/

namespace Gatehouse.Listen

variable {κ : Type}

/-! ## Records -/

namespace Reconnecting.Effect

def opens? : Effect → Option ListenerAddress
  | .sessionOpened a => some a
  | _ => none

def closes? : Effect → Option ListenerAddress
  | .sessionClosed a => some a
  | _ => none

def reports? : Effect → Option ListenerError
  | .reported error => some error
  | _ => none

end Reconnecting.Effect

namespace Paced

open Reconnecting (Effect)

/-- What a task has done, and when. -/
abbrev Record := List (Nat × Effect)

def opened (r : Record) : List ListenerAddress := r.filterMap (·.2.opens?)

def closed (r : Record) : List ListenerAddress := r.filterMap (·.2.closes?)

def reported (r : Record) : List ListenerError := r.filterMap (·.2.reports?)

/-- The last failure was at this time, and no dial has begun since. -/
def FailedAt (r : Record) (time : Nat) : Prop :=
  ∃ earlier error later, r = earlier ++ (time, .reported error) :: later ∧
    ∀ m ∈ later, m.2.reports? = none ∧ m.2 ≠ .dialBegins

/-- What may be done at a time, after what was done before: a session is opened if none is open, the
one that is open is closed, and a dial begins if none is open and the rest since the last failure is
over. -/
def Fits (backoff : Nat) (before : Record) (m : Nat × Effect) : Prop :=
  (∀ n ∈ before, n.1 ≤ m.1) ∧
  match m.2 with
  | .sessionOpened _ => opened before = closed before
  | .sessionClosed a => opened before = closed before ++ [a]
  | .dialBegins => opened before = closed before ∧
      ∃ failedAt, FailedAt before failedAt ∧ failedAt + backoff ≤ m.1
  | .reported _ => True

/-- A record in which every entry fits what came before. -/
inductive Proper (backoff : Nat) : Record → Prop where
  | nil : Proper backoff []
  | snoc {r : Record} {m : Nat × Effect} (hr : Proper backoff r) (hm : Fits backoff r m) :
      Proper backoff (r ++ [m])

theorem opened_concat (r : Record) (m : Nat × Effect) :
    opened (r ++ [m]) = opened r ++ m.2.opens?.toList := by
  cases h : m.2.opens? <;> simp [opened, h]

theorem closed_concat (r : Record) (m : Nat × Effect) :
    closed (r ++ [m]) = closed r ++ m.2.closes?.toList := by
  cases h : m.2.closes? <;> simp [closed, h]

end Paced

/-! ## Steps -/

namespace Reconnecting

def session? (s : Reconnecting κ) : Option (Session κ) :=
  match s.phase with
  | .connected session => some session
  | .delivering session _ => some session
  | _ => none

/-- The error by which a dial or the session fails. -/
def failure? (s : Reconnecting κ) : Event κ → Option ListenerError
  | .dialFailed error => some error
  | .yielded =>
    match s.phase with
    | .connected session =>
      match session.incoming with
      | .error error :: _ => some error
      | _ => none
    | _ => none
  | _ => none

/-- All that a step of the task, or an arrival at its session, can do. -/
inductive Steps (s : Reconnecting κ) : Event κ → Reconnecting κ → Prop where
  | arrived {session : Session κ} {r : Accepted κ} (h : s.phase = .connected session) :
      Steps s (.arrived r)
        { s with phase := .connected { session with incoming := session.incoming ++ [r] } }
  | arrivedMeanwhile {session : Session κ} {c : κ} {r : Accepted κ}
      (h : s.phase = .delivering session c) :
      Steps s (.arrived r)
        { s with phase := .delivering { session with incoming := session.incoming ++ [r] } c }
  | dialed {session : Session κ} (h : s.phase = .dialing) :
      Steps s (.dialed session)
        { s with phase := .connected session, address := session.address }
  | dialFailed {error : ListenerError} (h : s.phase = .dialing) :
      Steps s (.dialFailed error) { s with phase := .resting }
  | yielded {session : Session κ} {c : κ} {rest : List (Accepted κ)}
      (h : s.phase = .connected session) (hin : session.incoming = .ok c :: rest) :
      Steps s .yielded { s with phase := .delivering { session with incoming := rest } c }
  | failed {session : Session κ} {error : ListenerError} {rest : List (Accepted κ)}
      (h : s.phase = .connected session) (hin : session.incoming = .error error :: rest) :
      Steps s .yielded { s with phase := .resting }
  | delivered {session : Session κ} {c : κ} (h : s.phase = .delivering session c)
      (hbuffer : s.buffer = none) :
      Steps s .delivered { s with phase := .connected session, buffer := some c }
  | rested (h : s.phase = .resting) : Steps s .rested { s with phase := .dialing }
  | stopped (h : s.hasEnded = false) (hclosed : s.closed = true) :
      Steps s .stopped { s with phase := .ended }

theorem steps_of_step? {s t : Reconnecting κ} {e : Event κ} (h : s.step? e = some t) :
    Steps s e t := by
  unfold step? at h
  split at h
  · next hphase => cases h; exact .arrived hphase
  · next hphase => cases h; exact .arrivedMeanwhile hphase
  · next hphase => cases h; exact .dialed hphase
  · next hphase => cases h; exact .dialFailed hphase
  · next hphase =>
    split at h
    · cases h
    · next hin => cases h; exact .yielded hphase hin
    · next hin => cases h; exact .failed hphase hin
  · next hphase =>
    split at h
    · cases h
    · next hbuffer => cases h; exact .delivered hphase hbuffer
  · next hphase => cases h; exact .rested hphase
  · cases h
  · next hphase =>
    split at h
    · next hclosed =>
      cases h
      refine .stopped ?_ hclosed
      rw [Bool.eq_false_iff, ne_eq, hasEnded_eq_true]
      exact hphase
    · cases h
  · cases h

end Reconnecting

namespace Paced

open Reconnecting (Effect)

theorem task_of_step? {s t : Paced κ} {e : Reconnecting.Event κ} (h : s.step? (.task e) = some t) :
    s.isEarly e = false ∧ ∃ u, Reconnecting.Steps s.listener e u ∧ t = s.after e u := by
  simp only [step?] at h
  split at h
  · cases h
  · next hearly =>
    obtain ⟨u, hu, rfl⟩ := Option.map_eq_some_iff.mp h
    exact ⟨Bool.eq_false_iff.mpr hearly, u, Reconnecting.steps_of_step? hu, rfl⟩

/-- What the task itself does not do leaves it where it is. -/
structure Still (s : Paced κ) (a : Act (Event κ) κ) (t : Paced κ) : Prop where
  phase : t.listener.phase = s.listener.phase
  address : t.listener.address = s.listener.address
  closed : t.listener.closed = true ↔ s.listener.closed = true ∨ a = .closeCalled
  buffer : t.listener.buffer = s.listener.buffer ∨ ∃ c, a = .accepted (.ok c)
  backoff : t.backoff = s.backoff
  record : t.record = s.record
  restsSince : t.restsSince = s.restsSince
  restsClosed : t.restsClosed = s.restsClosed
  later : s.now ≤ t.now
  hurried : s.isHurried = true → t.now = s.now

theorem still_refl (s : Paced κ) {a : Act (Event κ) κ} (ha : a ≠ .closeCalled) : Still s a s :=
  ⟨rfl, rfl, by simp [ha], .inl rfl, rfl, rfl, rfl, rfl, Nat.le_refl _, fun _ => rfl⟩

theorem still_of_passed {s t : Paced κ} {time : Nat} (h : s.step? (.passed time) = some t) :
    Still s (.event (.passed time)) t := by
  simp only [step?] at h
  split at h
  · cases h
  · next hhurried =>
    cases h
    have hsame : Still s (.event (.passed time)) s := still_refl s nofun
    exact { hsame with
      later := Nat.le_add_right ..
      hurried := fun hs => absurd hs hhurried }

theorem still_of_perform? [DecidableEq κ] {s t : Paced κ} {a : Act (Event κ) κ}
    (h : perform? s a = some t) (ha : ∀ e, a ≠ .event (.task e)) : Still s a t := by
  cases a with
  | event e =>
    cases e with
    | task e => exact absurd rfl (ha e)
    | passed time => exact still_of_passed h
  | accepted r =>
    obtain ⟨⟨r', u⟩, hu, heq⟩ := List.mem_map.mp (mem_answers_of_answered? h)
    cases heq
    rcases Reconnecting.taken_or_told hu with ⟨c, rfl, -, rfl⟩ | ⟨-, rfl⟩
    · have hsame : Still s (.accepted (.ok c)) s := still_refl s nofun
      exact { hsame with buffer := .inr ⟨c, rfl⟩ }
    · exact still_refl s nofun
  | abandoned =>
    cases h
    exact still_refl s nofun
  | closeCalled =>
    obtain ⟨u, hu, rfl⟩ := Option.map_eq_some_iff.mp h
    rw [Reconnecting.eq_of_close? hu]
    have hsame : Still s .abandoned s := still_refl s nofun
    exact { hsame with closed := by simp, buffer := .inl rfl }
  | closeRefused =>
    obtain rfl := eq_of_closeRefused h
    exact still_refl s nofun
  | closeReturned r =>
    obtain rfl := eq_of_closeReturned h
    exact still_refl s nofun

end Paced

/-! ## What a task keeps to -/

namespace Paced

open Reconnecting (Effect)

/-- The sessions follow each other. -/
structure InTurn (s : Paced κ) : Prop where
  proper : Proper s.backoff s.record
  past : ∀ m ∈ s.record, m.1 ≤ s.now
  sessions : opened s.record = closed s.record ++ (s.listener.session?.map (·.address)).toList
  address : (opened s.record).getLast? = some s.listener.address
  resting : s.listener.isResting = true → FailedAt s.record s.restsSince
  hurried : s.isHurried = true → s.now = s.restsSince

theorem failedAt_reported (r : Record) (time : Nat) (error : ListenerError) :
    FailedAt (r ++ [(time, .reported error)]) time :=
  ⟨r, error, [], rfl, nofun⟩

theorem FailedAt.concat {r : Record} {time : Nat} (h : FailedAt r time) {m : Nat × Effect}
    (hm : m.2.reports? = none ∧ m.2 ≠ .dialBegins) : FailedAt (r ++ [m]) time := by
  obtain ⟨earlier, error, later, rfl, hlater⟩ := h
  refine ⟨earlier, error, later ++ [m], by simp, fun n hn => ?_⟩
  rcases List.mem_append.mp hn with hn | hn
  · exact hlater n hn
  · rwa [List.mem_singleton.mp hn]

theorem InTurn.still {s t : Paced κ} {a : Act (Event κ) κ} (hs : InTurn s) (h : Still s a t) :
    InTurn t where
  proper := by
    rw [h.backoff, h.record]
    exact hs.proper
  past m hm := by
    rw [h.record] at hm
    exact Nat.le_trans (hs.past m hm) h.later
  sessions := by
    rw [h.record, Reconnecting.session?, h.phase]
    exact hs.sessions
  address := by
    rw [h.record, h.address]
    exact hs.address
  resting hrest := by
    rw [Reconnecting.isResting, h.phase] at hrest
    rw [h.record, h.restsSince]
    exact hs.resting hrest
  hurried hhurried := by
    rw [isHurried, Reconnecting.isResting, h.phase, h.restsClosed] at hhurried
    rw [h.hurried hhurried, h.restsSince]
    exact hs.hurried hhurried

/-- What a step of the task has to see to. -/
theorem InTurn.after {s : Paced κ} (hs : InTurn s) {e : Reconnecting.Event κ} {u : Reconnecting κ}
    {effects : List Effect} (heffects : s.listener.effects e = effects)
    (hproper : Proper s.backoff (s.record ++ effects.map (s.now, ·)))
    (hsessions : opened (s.record ++ effects.map (s.now, ·)) =
      closed (s.record ++ effects.map (s.now, ·)) ++ (u.session?.map (·.address)).toList)
    (haddress : (opened (s.record ++ effects.map (s.now, ·))).getLast? = some u.address)
    (hrest : u.isResting = true → FailedAt (s.record ++ effects.map (s.now, ·)) s.now) :
    InTurn (s.after e u) := by
  subst heffects
  refine ⟨hproper, fun m hm => ?_, hsessions, haddress, fun hr => ?_, fun hh => ?_⟩
  · rcases List.mem_append.mp hm with hm | hm
    · exact hs.past m hm
    · obtain ⟨effect, -, rfl⟩ := List.mem_map.mp hm
      exact Nat.le_refl _
  · have hresting : u.isResting = true := hr
    simpa [Paced.after, hresting] using hrest hresting
  · have hresting : u.isResting = true := (Bool.and_eq_true _ _ ▸ hh).1
    simp [Paced.after, hresting]

/-- A step that nobody outside sees. -/
theorem InTurn.quiet {s : Paced κ} (hs : InTurn s) {e : Reconnecting.Event κ} {u : Reconnecting κ}
    (heffects : s.listener.effects e = [])
    (hsession : u.session?.map (·.address) = s.listener.session?.map (·.address))
    (haddress : u.address = s.listener.address) (hrest : u.isResting = false) :
    InTurn (s.after e u) := by
  refine hs.after heffects ?_ ?_ ?_ fun hr => ?_
  · simpa using hs.proper
  · simpa [hsession] using hs.sessions
  · simpa [haddress] using hs.address
  · simp [hrest] at hr

/-- A step of which one thing is seen. -/
theorem InTurn.seen {s : Paced κ} (hs : InTurn s) {e : Reconnecting.Event κ} {u : Reconnecting κ}
    {effect : Effect} (heffects : s.listener.effects e = [effect])
    (hfits : Fits s.backoff s.record (s.now, effect))
    (hsessions : opened s.record ++ effect.opens?.toList =
      closed s.record ++ effect.closes?.toList ++ (u.session?.map (·.address)).toList)
    (haddress : (opened s.record ++ effect.opens?.toList).getLast? = some u.address)
    (hrest : u.isResting = true → FailedAt (s.record ++ [(s.now, effect)]) s.now) :
    InTurn (s.after e u) := by
  rw [← opened_concat s.record (s.now, effect), ← closed_concat s.record (s.now, effect)]
    at hsessions
  rw [← opened_concat s.record (s.now, effect)] at haddress
  exact hs.after heffects (hs.proper.snoc hfits) hsessions haddress hrest

/-- The session has failed: that is reported, and then it is closed. -/
theorem InTurn.fails {s : Paced κ} (hs : InTurn s) {session : Session κ} {error : ListenerError}
    (hsession : s.listener.session? = some session)
    (heffects : s.listener.effects .yielded =
      [.reported error, .sessionClosed session.address]) :
    InTurn (s.after .yielded { s.listener with phase := .resting }) := by
  have hone : opened s.record = closed s.record ++ [session.address] := by
    simpa [hsession] using hs.sessions
  let reports : Record := s.record ++ [(s.now, .reported error)]
  have hopened : opened reports = opened s.record := by
    rw [opened_concat]
    exact List.append_nil _
  have hclosed : closed reports = closed s.record := by
    rw [closed_concat]
    exact List.append_nil _
  have hreports : Proper s.backoff reports := hs.proper.snoc ⟨hs.past, trivial⟩
  have hpast : ∀ n ∈ reports, n.1 ≤ s.now := by
    intro n hn
    rcases List.mem_append.mp hn with hn | hn
    · exact hs.past n hn
    · exact Nat.le_of_eq (congrArg Prod.fst (List.mem_singleton.mp hn))
  have hproper : Proper s.backoff (reports ++ [(s.now, .sessionClosed session.address)]) :=
    hreports.snoc ⟨hpast, show opened reports = _ by rw [hopened, hclosed, hone]⟩
  have hrecord : s.record ++
      [Effect.reported error, .sessionClosed session.address].map (s.now, ·) =
      reports ++ [(s.now, .sessionClosed session.address)] := by
    simp [reports]
  refine hs.after heffects ?_ ?_ ?_ fun _ => ?_
  · rwa [hrecord]
  · rw [hrecord, opened_concat, closed_concat, hopened, hclosed, hone]
    simp [Effect.opens?, Effect.closes?, Reconnecting.session?]
  · rw [hrecord, opened_concat, hopened]
    simpa [Effect.opens?] using hs.address
  · rw [hrecord]
    exact (failedAt_reported s.record s.now error).concat ⟨rfl, nofun⟩

theorem InTurn.task {s : Paced κ} (hs : InTurn s) {e : Reconnecting.Event κ} {u : Reconnecting κ}
    (hearly : s.isEarly e = false) (h : Reconnecting.Steps s.listener e u) :
    InTurn (s.after e u) := by
  have hnone : s.listener.session? = none → opened s.record = closed s.record := by
    intro hsession
    simpa [hsession] using hs.sessions
  cases h with
  | arrived h => exact hs.quiet rfl (by simp [Reconnecting.session?, h]) rfl rfl
  | arrivedMeanwhile h => exact hs.quiet rfl (by simp [Reconnecting.session?, h]) rfl rfl
  | yielded h hin =>
    refine hs.quiet ?_ (by simp [Reconnecting.session?, h]) rfl rfl
    simp [Reconnecting.effects, h, hin]
  | delivered h hbuffer => exact hs.quiet rfl (by simp [Reconnecting.session?, h]) rfl rfl
  | @dialed session h =>
    have hclosed := hnone (by simp [Reconnecting.session?, h])
    have heffects : s.listener.effects (.dialed session) = [.sessionOpened session.address] := rfl
    refine hs.seen heffects ⟨hs.past, hclosed⟩ ?_ ?_ nofun
    · simp [hclosed, Effect.opens?, Effect.closes?, Reconnecting.session?]
    · simp [Effect.opens?]
  | @dialFailed error h =>
    have hclosed := hnone (by simp [Reconnecting.session?, h])
    have heffects : s.listener.effects (.dialFailed error) = [.reported error] := rfl
    refine hs.seen heffects ⟨hs.past, trivial⟩ ?_ ?_ fun _ => failedAt_reported ..
    · simp [hclosed, Effect.opens?, Effect.closes?, Reconnecting.session?]
    · simpa [Effect.opens?] using hs.address
  | @failed session error rest h hin =>
    have hsession : s.listener.session? = some session := by simp [Reconnecting.session?, h]
    have heffects : s.listener.effects .yielded =
        [.reported error, .sessionClosed session.address] := by
      simp [Reconnecting.effects, h, hin]
    exact hs.fails hsession heffects
  | rested h =>
    have hclosed := hnone (by simp [Reconnecting.session?, h])
    have hover : s.restsSince + s.backoff ≤ s.now := by simpa [isEarly] using hearly
    have hfailed : FailedAt s.record s.restsSince :=
      hs.resting (by simp [Reconnecting.isResting, h])
    have heffects : s.listener.effects .rested = [.dialBegins] := rfl
    refine hs.seen heffects ⟨hs.past, hclosed, _, hfailed, hover⟩ ?_ ?_ nofun
    · simp [hclosed, Effect.opens?, Effect.closes?, Reconnecting.session?]
    · simpa [Effect.opens?] using hs.address
  | stopped h hclosed =>
    cases hphase : s.listener.phase with
    | dialing | resting =>
      exact hs.quiet (by simp [Reconnecting.effects, hphase])
        (by simp [Reconnecting.session?, hphase]) rfl rfl
    | connected session | delivering session _ =>
      have hone : opened s.record = closed s.record ++ [session.address] := by
        simpa [Reconnecting.session?, hphase] using hs.sessions
      have heffects : s.listener.effects .stopped = [.sessionClosed session.address] := by
        simp [Reconnecting.effects, hphase]
      refine hs.seen heffects ⟨hs.past, hone⟩ ?_ ?_ nofun
      · simp [hone, Effect.opens?, Effect.closes?, Reconnecting.session?]
      · simpa [Effect.opens?] using hs.address
    | ended => simp [Reconnecting.hasEnded, hphase] at h

end Paced

end Gatehouse.Listen
