import Gatehouse.Launch.Startup

/-!
# What has been done when the gateway does not start

A start is followed by what it does: its steps are appended to those before, also when it fails.
The checks fail with errors of the configuration, and all that they do is to watch the file of
routes; whatever comes after them fails with other errors.  Among the checks is the one for a source
of connections, so that there is something to merge for HTTPS.

    Start.Does             : what comes of a start, and what has been done then
    Start.Does.andThen     : one after the other
    does_check             : the checks
    does_startHttps        : HTTPS is served, if there is a source
    nothing_begun_of_error : nothing is begun with a configuration that is refused
-/

namespace Gatehouse.Launch

open Cli Relay

/-! ## Specification -/

/-- Errors of the options and of the files that they name. -/
def GatewayError.isOfConfiguration : GatewayError → Bool
  | settings _ | route _ | routesFile _ | unwatchable _ | relayKey _ | certificates _ => true
  | _ => false

/-- Errors of the world, in which a cache, an address or a relay cannot be used. -/
def GatewayError.isOfSurroundings : GatewayError → Bool
  | purging _ | cacheDirectory _ | binding _ | relay _ => true
  | _ => false

/-- Whatever was done before, this is what comes of a start and what it does. -/
def Start.Does {α : Type} (x : Start α)
    (P : Except GatewayError α → List StartStep → Prop) : Prop :=
  ∀ before, ∃ result steps, x.run.run before = (result, before ++ steps) ∧ P result steps

/-! ## Starts in general -/

namespace Start

variable {α β ε : Type}

theorem does_pure (a : α) : Does (pure a) fun r steps => r = .ok a ∧ steps = [] :=
  fun before => ⟨.ok a, [], by simp; rfl, rfl, rfl⟩

theorem does_throw (e : GatewayError) :
    Does (throw e : Start α) fun r steps => r = .error e ∧ steps = [] :=
  fun before => ⟨.error e, [], by simp; rfl, rfl, rfl⟩

theorem does_modify (more : List StartStep) :
    Does (modify (· ++ more)) fun r steps => r = .ok () ∧ steps = more :=
  fun _ => ⟨.ok (), more, rfl, rfl, rfl⟩

theorem does_done (s : StartStep) : Does (done s) fun r steps => r = .ok () ∧ steps = [s] :=
  does_modify [s]

/-- After a start that fails nothing is done. -/
theorem run_bind_error {x : Start α} {before s : List StartStep} {e : GatewayError}
    (h : x.run.run before = (.error e, s)) (f : α → Start β) :
    (x >>= f).run.run before = (.error e, s) := by
  rw [ExceptT.run_bind, StateT.run_bind, h]
  rfl

theorem run_bind_ok {x : Start α} {before s : List StartStep} {a : α}
    (h : x.run.run before = (.ok a, s)) (f : α → Start β) :
    (x >>= f).run.run before = (f a).run.run s := by
  rw [ExceptT.run_bind, StateT.run_bind, h]
  rfl

namespace Does

variable {x : Start α} {P P' : Except GatewayError α → List StartStep → Prop}

theorem imp (h : x.Does P) (hP : ∀ r steps, P r steps → P' r steps) : x.Does P' := by
  intro before
  obtain ⟨r, steps, hrun, hr⟩ := h before
  exact ⟨r, steps, hrun, hP r steps hr⟩

/-- One start after the other, unless the first fails. -/
theorem andThen {f : α → Start β} {Q : Except GatewayError β → List StartStep → Prop}
    (h : x.Does P)
    (hok : ∀ a steps, P (.ok a) steps → (f a).Does fun r more => Q r (steps ++ more))
    (herror : ∀ e steps, P (.error e) steps → Q (.error e) steps) : Does (x >>= f) Q := by
  intro before
  obtain ⟨r, steps, hrun, hr⟩ := h before
  cases r with
  | error e => exact ⟨.error e, steps, run_bind_error hrun f, herror e steps hr⟩
  | ok a =>
    obtain ⟨r, more, hmore, hQ⟩ := hok a steps hr (before ++ steps)
    refine ⟨r, steps ++ more, ?_, hQ⟩
    rw [run_bind_ok hrun, hmore, List.append_assoc]

end Does

section

variable {f : α → Start β} {Q : Except GatewayError β → List StartStep → Prop}

theorem does_pure_bind {a : α} (h : (f a).Does Q) : Does (pure a >>= f) Q := by
  refine (does_pure a).andThen ?_ ?_
  · rintro _ _ ⟨hr, rfl⟩
    cases hr
    exact h
  · rintro e _ ⟨hr, -⟩
    cases hr

theorem does_throw_bind {e : GatewayError} (h : Q (.error e) []) : Does (throw e >>= f) Q := by
  refine (does_throw e).andThen ?_ ?_
  · rintro _ _ ⟨hr, -⟩
    cases hr
  · rintro _ _ ⟨hr, rfl⟩
    cases hr
    exact h

/-- What was read is gone on with, unless it could not be read. -/
theorem does_ensure_bind {error : ε → GatewayError} {x : Except ε α}
    (hok : ∀ a, x = .ok a → (f a).Does Q) (herror : ∀ e, x = .error e → Q (.error (error e)) []) :
    Does (ensure error x >>= f) Q := by
  cases x with
  | ok a => exact does_pure_bind (hok a rfl)
  | error e => exact does_throw_bind (herror e rfl)

theorem does_modify_bind {more : List StartStep} {f : Unit → Start β}
    (h : (f ()).Does fun r steps => Q r (more ++ steps)) :
    Does (modify (· ++ more) >>= f) Q := by
  refine (does_modify more).andThen ?_ ?_
  · rintro _ _ ⟨-, rfl⟩
    exact h
  · rintro e _ ⟨hr, -⟩
    cases hr

theorem does_done_bind {s : StartStep} {f : Unit → Start β}
    (h : (f ()).Does fun r steps => Q r (s :: steps)) : Does (done s >>= f) Q :=
  does_modify_bind h

end

end Start

/-! ## The checks -/

theorem isOfConfiguration_of_routesOf {o : Options} {w : Surroundings} {e : GatewayError}
    (h : routesOf o w = .error e) : e.isOfConfiguration = true := by
  unfold routesOf at h
  cases hbase : Routes.parseArguments o.routes with
  | error cause =>
    rw [hbase] at h
    cases h
    rfl
  | ok base =>
    rw [hbase] at h
    cases hfile : o.routesFile with
    | none =>
      rw [hfile] at h
      cases h
    | some path =>
      rw [hfile] at h
      cases hload : Routes.load path (w.file path) with
      | error cause =>
        simp only [hload] at h
        cases h
        rfl
      | ok upper =>
        simp only [hload] at h
        cases h

theorem eq_of_dialerOf_error {o : Options} {w : Surroundings} {e : GatewayError}
    (h : dialerOf o w = .error e) : e = .relayKey o.relayKeyFile := by
  unfold dialerOf at h
  split at h
  · cases h
  · split at h
    · cases h
    · split at h
      · cases h
        rfl
      · cases h

theorem isOfConfiguration_of_storeOf {o : Options} {w : Surroundings} {e : GatewayError}
    (h : storeOf o w = .error e) : e.isOfConfiguration = true := by
  unfold storeOf at h
  cases hdirectory : o.certificatesDirectory with
  | none =>
    rw [hdirectory] at h
    cases h
  | some path =>
    rw [hdirectory] at h
    cases hload : Certificate.Store.load path (w.certificates path) with
    | ok store =>
      simp only [hload] at h
      cases h
    | error cause =>
      simp only [hload] at h
      cases h
      rfl

def IsWatch (o : Options) (s : StartStep) : Prop :=
  ∃ path, o.routesFile = some path ∧ s = .watch path

theorem does_startWatch (o : Options) :
    (startWatch o).Does fun r steps =>
      (∀ s ∈ steps, IsWatch o s) ∧ ∀ e, r = .error e → e.isOfConfiguration = true := by
  unfold startWatch
  cases hfile : o.routesFile with
  | none =>
    refine (Start.does_pure ()).imp ?_
    rintro _ _ ⟨rfl, rfl⟩
    simp
  | some path =>
    refine Start.does_ensure_bind (fun _ _ => ?_) fun cause _ => ?_
    · refine (Start.does_done _).imp ?_
      rintro _ _ ⟨rfl, rfl⟩
      simp [IsWatch, hfile]
    · simp [GatewayError.isOfConfiguration]

/-- What the checks come to: all that they do is to watch the file of routes. -/
def Checks (o : Options) (w : Surroundings) (r : Except GatewayError Checked)
    (steps : List StartStep) : Prop :=
  (∀ s ∈ steps, IsWatch o s) ∧
    match r with
    | .error e => e.isOfConfiguration = true
    | .ok c => Settings.ofOptions o = .ok c.settings ∧ dialerOf o w = .ok c.dialer

theorem does_check (o : Options) (w : Surroundings) : (check o w).Does (Checks o w) := by
  unfold check
  refine Start.does_ensure_bind (fun settings hsettings => ?_) fun e _ => ?_
  · refine Start.does_ensure_bind (fun ⟨base, routes⟩ _ => ?_) fun e he => ?_
    · refine (does_startWatch o).andThen ?_ ?_
      · rintro - watching ⟨hwatch, -⟩
        refine Start.does_ensure_bind (fun dialer hdialer => ?_) fun e he => ?_
        · refine Start.does_ensure_bind (fun manual _ => ?_) fun e he => ?_
          · refine (Start.does_pure _).imp ?_
            rintro _ _ ⟨rfl, rfl⟩
            simpa [Checks, hsettings, hdialer] using hwatch
          · simpa [Checks, isOfConfiguration_of_storeOf he] using hwatch
        · obtain rfl := eq_of_dialerOf_error he
          simpa [Checks, GatewayError.isOfConfiguration] using hwatch
      · rintro e watching ⟨hwatch, he⟩
        simpa [Checks, he e rfl] using hwatch
    · simp [Checks, isOfConfiguration_of_routesOf he]
  · simp [Checks, GatewayError.isOfConfiguration]

/-! ## What comes after them -/

/-- Some source of connections is configured, unless HTTPS is not served. -/
theorem isSome_dialer_or_local {o : Options} {w : Surroundings} {c : Checked}
    (hsettings : Settings.ofOptions o = .ok c.settings) (hdialer : dialerOf o w = .ok c.dialer)
    (hhttps : o.disableHttps = false) :
    o.disableLocalListener = false ∨ c.dialer.isSome = true := by
  cases hlocal : o.disableLocalListener with
  | false => exact .inl rfl
  | true =>
    right
    cases hhost : o.relayHost with
    | none =>
      -- This is what the options are refused for.
      simp [Settings.ofOptions, hhttps, hlocal, hhost] at hsettings
      cases hsettings
    | some host =>
      unfold dialerOf at hdialer
      rw [hhost] at hdialer
      simp only [hhttps] at hdialer
      cases hkey : w.key o.relayKeyFile with
      | none =>
        simp [hkey] at hdialer
      | some key =>
        simp only [hkey, Bool.false_eq_true, if_false, Except.ok.injEq] at hdialer
        rw [← hdialer]
        rfl

theorem does_startCache (o : Options) (w : Surroundings) :
    (startCache o w).Does fun r _ => ∀ e, r = .error e → e.isOfSurroundings = true := by
  unfold startCache
  cases hcontact : o.acmeContactEmail with
  | none =>
    refine (Start.does_pure none).imp ?_
    rintro _ _ ⟨rfl, -⟩
    simp
  | some contact =>
    refine Start.does_ensure_bind (fun ⟨removed, left⟩ _ => Start.does_done_bind ?_) fun e _ => ?_
    · by_cases hcreate : (!w.canCreate o.acmeCacheDirectory) = true
      · rw [if_pos hcreate]
        refine Start.does_throw_bind ?_
        simp [GatewayError.isOfSurroundings]
      · rw [if_neg hcreate]
        refine Start.does_done_bind ((Start.does_pure _).imp ?_)
        rintro _ _ ⟨rfl, -⟩
        simp
    · simp [GatewayError.isOfSurroundings]

/-- The address for HTTPS is bound unless there is to be none. -/
theorem does_startLocal (o : Options) (s : Settings) (w : Surroundings) :
    (startLocal o s w).Does fun r _ =>
      match r with
      | .error e => e.isOfSurroundings = true
      | .ok direct => o.disableLocalListener = false → direct.isSome = true := by
  unfold startLocal
  by_cases hlocal : o.disableLocalListener = true
  · rw [if_pos hlocal]
    refine (Start.does_pure none).imp ?_
    rintro _ _ ⟨rfl, -⟩
    simp [hlocal]
  · rw [if_neg hlocal]
    by_cases hbind : (!w.canBind s.https) = true
    · rw [if_pos hbind]
      refine Start.does_throw_bind ?_
      simp [GatewayError.isOfSurroundings]
    · rw [if_neg hbind]
      refine Start.does_done_bind ((Start.does_pure _).imp ?_)
      rintro _ _ ⟨rfl, -⟩
      simp

/-- The relay is dialed if it is known how. -/
theorem does_startTunnel (d : Option Dialer) (w : Surroundings) :
    (startTunnel d w).Does fun r _ =>
      match r with
      | .error e => e.isOfSurroundings = true
      | .ok tunnel => d.isSome = true → tunnel.isSome = true := by
  unfold startTunnel
  cases d with
  | none =>
    refine (Start.does_pure none).imp ?_
    rintro _ _ ⟨rfl, -⟩
    simp
  | some d =>
    refine Start.does_modify_bind (Start.does_ensure_bind (fun address _ => ?_) fun e _ => ?_)
    · refine (Start.does_pure _).imp ?_
      rintro _ _ ⟨rfl, -⟩
      simp
    · simp [GatewayError.isOfSurroundings]

/-- With a source of connections there is something to merge, and HTTPS is served. -/
theorem does_startHttps {o : Options} {s : Settings} {d : Option Dialer} {w : Surroundings}
    (hsource : o.disableHttps = false → o.disableLocalListener = false ∨ d.isSome = true) :
    (startHttps o s d w).Does fun r steps =>
      match r with
      | .error e => e.isOfSurroundings = true
      | .ok _ => o.disableHttps = false → .serveHttps ∈ steps := by
  unfold startHttps
  by_cases hhttps : o.disableHttps = true
  · rw [if_pos hhttps]
    refine (Start.does_pure none).imp ?_
    rintro _ _ ⟨rfl, -⟩
    simp [hhttps]
  · rw [if_neg hhttps]
    refine (does_startLocal o s w).andThen ?_ fun e _ he => he
    intro direct _ hdirect
    refine (does_startTunnel d w).andThen ?_ fun e _ he => he
    intro tunnel _ htunnel
    have hsome : direct.isSome = true ∨ tunnel.isSome = true :=
      (hsource (eq_false_of_ne_true hhttps)).imp hdirect htunnel
    refine Start.does_ensure_bind (fun mux _ => ?_) fun e he => ?_
    · refine Start.does_done_bind ((Start.does_pure _).imp ?_)
      rintro _ _ ⟨rfl, rfl⟩
      simp
    · -- Merging fails only when both are missing.
      cases direct <;> cases tunnel <;> simp [Listen.Mux.ofSources] at hsome he

theorem does_startChecks (o : Options) (s : Settings) :
    (startChecks o s).Does fun r _ => ∀ e, r = .error e → e = .noTimer := by
  unfold startChecks
  split
  · split
    · refine Start.does_throw_bind ?_
      simp
    · refine Start.does_pure_bind ((Start.does_done _).imp ?_)
      rintro _ _ ⟨rfl, -⟩
      simp
  · refine (Start.does_pure ()).imp ?_
    rintro _ _ ⟨rfl, -⟩
    simp

/-! ## The whole -/

/-- What may come of a start that has been checked: HTTPS is served, if it is to be, unless the
world does not let it. -/
def Outcome (o : Options) (r : Except GatewayError Gateway) (steps : List StartStep) : Prop :=
  (∃ e, r = .error e ∧ e.isOfSurroundings = true) ∨
    (∀ e, r = .error e → e = .noTimer) ∧ (o.disableHttps = false → .serveHttps ∈ steps)

theorem Outcome.append {o : Options} {r : Except GatewayError Gateway} {steps : List StartStep}
    (h : Outcome o r steps) (before : List StartStep) : Outcome o r (before ++ steps) :=
  h.imp_right fun ⟨he, hserved⟩ => ⟨he, fun hhttps => List.mem_append_right _ (hserved hhttps)⟩

theorem does_startChecked {o : Options} {w : Surroundings} {c : Checked}
    (hsource : o.disableHttps = false →
      o.disableLocalListener = false ∨ c.dialer.isSome = true) :
    (startChecked o w c).Does (Outcome o) := by
  unfold startChecked
  refine (does_startCache o w).andThen ?_ fun e steps he => .inl ⟨e, rfl, he e rfl⟩
  intro cache tidied _
  have hrest : Start.Does (do
      let tunnel ← startHttps o c.settings c.dialer w
      startChecks o c.settings
      return { options := o, settings := c.settings, base := c.base,
               table := { routes := c.routes }, manual := c.manual, cache, tunnel })
      (Outcome o) := by
    refine (does_startHttps hsource).andThen ?_ fun e steps he => .inl ⟨e, rfl, he⟩
    intro tunnel served hserved
    refine (does_startChecks o c.settings).andThen ?_ ?_
    · intro _ checks _
      refine (Start.does_pure _).imp ?_
      rintro _ _ ⟨rfl, rfl⟩
      exact .inr ⟨by simp, fun hhttps => by simp [hserved hhttps]⟩
    · intro e checks he
      obtain rfl := he e rfl
      exact .inr ⟨by simp, fun hhttps => by simp [hserved hhttps]⟩
  by_cases hhttp : (!o.disableHttp) = true
  · rw [if_pos hhttp]
    refine Start.does_done_bind (hrest.imp fun r steps h => ?_)
    exact (h.append [_]).append tidied
  · rw [if_neg hhttp]
    exact hrest.imp fun r steps h => h.append tidied

/-- A start ends with its checks, or goes on after them. -/
theorem cases_start (o : Options) (w : Surroundings) :
    (∃ e, checked o w = .error e ∧ (start o w).1 = .error e ∧ e.isOfConfiguration = true ∧
      ∀ s ∈ (start o w).2, IsWatch o s) ∨
    ∃ c, checked o w = .ok c ∧ Outcome o (start o w).1 (start o w).2 := by
  obtain ⟨r, steps, hcheck, hwatch, hr⟩ := does_check o w []
  have hchecked : checked o w = r := by rw [checked, hcheck]
  cases r with
  | error e =>
    have hstart : start o w = (.error e, steps) := Start.run_bind_error hcheck _
    rw [hstart]
    exact .inl ⟨e, hchecked, rfl, hr, hwatch⟩
  | ok c =>
    obtain ⟨hsettings, hdialer⟩ := hr
    obtain ⟨r', more, hrun, hr'⟩ :=
      does_startChecked (isSome_dialer_or_local hsettings hdialer) steps
    have hstart : start o w = (r', steps ++ more) := (Start.run_bind_ok hcheck _).trans hrun
    rw [hstart]
    exact .inr ⟨c, hchecked, hr'.append steps⟩

/-- What is refused by the world or for want of a timer is no matter of the configuration. -/
theorem Outcome.of_error {o : Options} {e : GatewayError} {steps : List StartStep}
    (h : Outcome o (.error e) steps) :
    e.isOfConfiguration = false ∧ ∀ cause, e ≠ .merging cause := by
  rcases h with ⟨e', he, hsurroundings⟩ | ⟨he, -⟩
  · cases he
    cases e <;> simp_all [GatewayError.isOfConfiguration, GatewayError.isOfSurroundings]
  · obtain rfl := he e rfl
    simp [GatewayError.isOfConfiguration]

/-- **Nothing is begun with a configuration that is refused.**  When a start fails for its options
or for a file that they name, it has done nothing but to watch the file of routes; these are the
errors of the checks, and no others.  Once the checks are passed, HTTPS is served from some source,
unless the cache, the address or the relay cannot be used; there is never nothing to merge. -/
theorem nothing_begun_of_error (o : Options) (w : Surroundings) :
    (∀ e, (start o w).1 = .error e → e.isOfConfiguration = true →
      checked o w = .error e ∧
        ∀ s ∈ (start o w).2, ∃ path, o.routesFile = some path ∧ s = .watch path) ∧
    (∀ e, checked o w = .error e → (start o w).1 = .error e ∧ e.isOfConfiguration = true) ∧
    ((∃ c, checked o w = .ok c) → o.disableHttps = false →
      .serveHttps ∈ (start o w).2 ∨
        ∃ e, (start o w).1 = .error e ∧ e.isOfSurroundings = true) ∧
    ∀ cause, (start o w).1 ≠ .error (.merging cause) := by
  rcases cases_start o w with ⟨e, hchecked, hstart, he, hwatch⟩ | ⟨c, hchecked, houtcome⟩
  · rw [hchecked, hstart]
    refine ⟨?_, ?_, ?_, ?_⟩
    · rintro _ ⟨⟩ -
      exact ⟨rfl, hwatch⟩
    · rintro _ ⟨⟩
      exact ⟨rfl, he⟩
    · rintro ⟨c, ⟨⟩⟩
    · rintro cause ⟨⟩
      cases he
  · rw [hchecked]
    refine ⟨fun e he hconfiguration => ?_, ?_, fun _ hhttps => ?_, fun cause he => ?_⟩
    · rw [he] at houtcome
      rw [houtcome.of_error.1] at hconfiguration
      cases hconfiguration
    · rintro _ ⟨⟩
    · exact houtcome.symm.imp_left fun ⟨_, hserved⟩ => hserved hhttps
    · rw [he] at houtcome
      exact houtcome.of_error.2 cause rfl

/-- Plain HTTP, HTTPS, a relay and certificates by ACME, with all that they need. -/
def fullOptions : Options :=
  { routesFile := some "routes.json", certificatesDirectory := some "certs",
    acmeContactEmail := some "admin@home.example", relayHost := some "127.0.0.1" }

/-- All is in its place but the key of a certificate. -/
def withoutKey : Surroundings where
  file := fun _ => some (Octets.ofText "\x7b\x7d")
  certificates := fun _ => some [("home", .folder (.certificates []) .missing)]
  key := fun _ => some ⟨[]⟩
  cache := fun _ => .entries [⟨"cached_cert", true⟩]
  canCreate := fun _ => true
  canBind := fun _ => true
  lookup := fun host => .error host
  relay := { accepts := fun _ => true, hostKey := ⟨[]⟩, authenticates := fun _ _ => true,
             forwards := fun _ port => some port }

theorem start_withoutKey :
    (start fullOptions withoutKey).1 = .error (.certificates (.invalid "certs/home")) ∧
      ∀ s ∈ (start fullOptions withoutKey).2, s = .watch "routes.json" := by
  have hstart : (start fullOptions withoutKey).1 =
      .error (.certificates (.invalid "certs/home")) := by rfl
  refine ⟨hstart, fun s hs => ?_⟩
  obtain ⟨-, hwatch⟩ := (nothing_begun_of_error fullOptions withoutKey).1 _ hstart rfl
  obtain ⟨path, hpath, rfl⟩ := hwatch s hs
  cases hpath
  rfl

end Gatehouse.Launch
