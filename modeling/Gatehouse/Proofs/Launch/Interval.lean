import Gatehouse.Proofs.Launch.Starting

/-!
# Health checks with every interval but none

The command line takes every duration as the time between two health checks, also none at all, and
for that there is no timer.  The interval is not among what is checked first: it is looked at when
everything else has been begun, and nothing before depends on it.  So the gateway fails for want of
a timer exactly where, with any other interval, it would go on with the checks.

    readArguments_optionArgument : an option with a value is read
    intervals_accepted       : what the command line takes for an interval
    startGateway_eq          : the health checks come last
    beforeChecks_atInterval  : nothing before them depends on the interval
    does_beforeChecks        : what fails before them, does so for other reasons
    start_atInterval         : what comes of a start, by the interval
    fails_only_without_interval : when there is no timer, and what has been begun then
-/

namespace Gatehouse.Launch

open Cli Certificate Health Text

/-! ## Specification -/

/-- The options with another time between health checks. -/
def atInterval (o : Options) (d : Duration) : Options := { o with healthCheckInterval := d }

/-! ## What the command line takes -/

/-- An argument with the name of an option and a value. -/
def optionArgument (name value : String) : String := "--" ++ name ++ "=" ++ value

/-- An option with a value that it takes can be given by itself. -/
theorem readArguments_optionArgument {specs : List OptionSpec} {spec : OptionSpec}
    {name value : String} (hequals : '=' ∉ name.toList) (hhelp : name ≠ "help")
    (hversion : name ≠ "version") (hspec : specs.find? (·.name == name) = some spec)
    (harity : spec.arity ≠ .flag) (hvalue : spec.valueError value = none) :
    readArguments specs [optionArgument name value] = .ok [(spec.name, value)] := by
  have hchars : (optionArgument name value).toList =
      '-' :: '-' :: (name ++ "=" ++ value).toList := by
    simp [optionArgument]
  have hcut : cut '=' (name ++ "=" ++ value) = some (name, value) :=
    (cut_eq_some_iff _ _ _ _).mpr ⟨hequals, rfl⟩
  have hadd : Reading.add {} spec (some value) = .ok { given := [(spec.name, value)] } := by
    cases hspec' : spec.arity <;> simp_all [Reading.add, Reading.has]
  have hlong : Reading.long specs {} (name ++ "=" ++ value) =
      .ok { given := [(spec.name, value)] } := by
    have hname : (name == "help" || name == "version") = false := by simp [hhelp, hversion]
    simp only [Reading.long, hcut, hspec]
    cases hspec' : spec.arity with
    | flag => exact absurd hspec' harity
    | once | many =>
      simp only [hname, Bool.false_eq_true, if_false]
      exact hadd
  have hstep : Reading.step specs {} (optionArgument name value) =
      .ok { given := [(spec.name, value)] } := by
    rw [Reading.step, if_neg Bool.false_ne_true, hchars]
    cases hbody : (name ++ "=" ++ value).toList with
    | nil => simp at hbody
    | cons c cs =>
      rw [← String.ofList_toList (s := name ++ "=" ++ value), hbody] at hlong
      exact hlong
  rw [readArguments, List.foldlM_cons, hstep]
  rfl

/-- The command line takes every duration for the interval. -/
theorem ofArguments_interval {text : String} {d : Duration} (h : Duration.ofText? text = some d) :
    Options.ofArguments [optionArgument "health-check-interval" text] =
      .ok (atInterval {} d) := by
  have hspec : specs.find? (·.name == "health-check-interval") =
      some ⟨"health-check-interval", .once, mustRead Duration.ofText?⟩ := rfl
  have hread : readArguments specs [optionArgument "health-check-interval" text] =
      .ok [("health-check-interval", text)] :=
    readArguments_optionArgument (by decide) (by decide) (by decide) hspec nofun
      (by simp [mustRead, h])
  rw [Options.ofArguments, hread]
  refine congrArg Except.ok ?_
  simp [Options.ofGiven, Given.value?, Given.flag, Given.values, atInterval, h]

/-- The interval of options is written in an argument, or the default. -/
theorem exists_text_of_ofGiven (g : Given) :
    ∃ text, Duration.ofText? text = some (Options.ofGiven g).healthCheckInterval := by
  have hdefault : Duration.ofText? "10s" = some (.ofSeconds 10) := by decide
  unfold Options.ofGiven
  cases hvalue : (g.value? "health-check-interval").bind Duration.ofText? with
  | none => exact ⟨"10s", hdefault⟩
  | some d =>
    obtain ⟨text, -, htext⟩ := Option.bind_eq_some_iff.1 hvalue
    exact ⟨text, htext⟩

/-- The command line takes every duration. -/
theorem intervals_accepted (d : Duration) :
    (∃ args o, Options.ofArguments args = .ok o ∧ o.healthCheckInterval = d) ↔
      ∃ text, Duration.ofText? text = some d := by
  constructor
  · rintro ⟨args, o, ho, rfl⟩
    unfold Options.ofArguments at ho
    cases hread : readArguments specs args with
    | error e =>
      rw [hread] at ho
      cases ho
    | ok g =>
      rw [hread] at ho
      cases ho
      exact exists_text_of_ofGiven g
  · rintro ⟨text, htext⟩
    exact ⟨_, _, ofArguments_interval htext, rfl⟩

/-! ## Before the health checks -/

/-- What is at hand when the health checks are to begin. -/
structure Begun where
  checked : Checked
  cache : Option (List CacheEntry)
  tunnel : Option ListenerAddress

/-- All that is begun before the health checks. -/
def beforeChecks (o : Options) (w : Surroundings) : Start Begun := do
  let checked ← check o w
  let cache ← startCache o w
  if !o.disableHttp then done (.servePlain checked.settings.http)
  let tunnel ← startHttps o checked.settings checked.dialer w
  return { checked, cache, tunnel }

def Begun.gateway (b : Begun) (o : Options) : Gateway where
  options := o
  settings := b.checked.settings
  base := b.checked.base
  table := { routes := b.checked.routes }
  manual := b.checked.manual
  cache := b.cache
  tunnel := b.tunnel

/-- The health checks begin, and the gateway has started. -/
def Begun.finish (b : Begun) (o : Options) : Start Gateway := do
  startChecks o b.checked.settings
  return b.gateway o

/-- The health checks come last. -/
theorem startGateway_eq (o : Options) (w : Surroundings) :
    startGateway o w = beforeChecks o w >>= fun b => b.finish o := by
  unfold startGateway startChecked beforeChecks Begun.finish
  cases o.disableHttp <;> simp [Begun.gateway]

/-- What is begun before does not depend on the interval. -/
theorem beforeChecks_atInterval (o : Options) (d : Duration) (w : Surroundings) :
    beforeChecks (atInterval o d) w = beforeChecks o w := rfl

/-- What fails before, fails for the configuration or for the surroundings. -/
theorem does_beforeChecks (o : Options) (w : Surroundings) :
    (beforeChecks o w).Does fun r _ => ∀ e, r = .error e →
      e.isOfConfiguration = true ∨ e.isOfSurroundings = true := by
  unfold beforeChecks
  refine (does_check o w).andThen ?_ ?_
  · rintro c _ ⟨-, hsettings, hdialer⟩
    refine (does_startCache o w).andThen ?_ ?_
    · intro cache _ _
      have hrest : Start.Does (do
          let tunnel ← startHttps o c.settings c.dialer w
          return { checked := c, cache, tunnel })
          fun (r : Except GatewayError Begun) _ => ∀ e, r = .error e →
            e.isOfConfiguration = true ∨ e.isOfSurroundings = true := by
        refine (does_startHttps (isSome_dialer_or_local hsettings hdialer)).andThen ?_ ?_
        · intro tunnel _ _
          refine (Start.does_pure _).imp ?_
          rintro _ _ ⟨rfl, -⟩
          nofun
        · rintro e _ he _ ⟨⟩
          exact .inr he
      by_cases hhttp : (!o.disableHttp) = true
      · rw [if_pos hhttp]
        exact Start.does_done_bind hrest
      · rw [if_neg hhttp]
        exact hrest
    · rintro e _ he _ ⟨⟩
      exact .inr (he e rfl)
  · rintro e _ ⟨-, he⟩ _ ⟨⟩
    exact .inl he

/-! ## The health checks -/

theorem timerAccepts_iff (d : Duration) : timerAccepts d = true ↔ d ≠ ⟨0, 0⟩ := by
  obtain ⟨seconds, nanos⟩ := d
  simp [timerAccepts, Duration.isZero, Decidable.imp_iff_not_or]

section

variable {o : Options} {b : Begun} {steps : List StartStep}

/-- With an interval the health checks begin, if there is a URL to probe. -/
theorem Begun.finish_of_interval (ho : o.healthCheckInterval ≠ ⟨0, 0⟩) :
    (b.finish o).run.run steps = (.ok (b.gateway o),
      if (healthUrl o b.checked.settings.http).isSome then steps ++ [.checkHealth] else steps) := by
  unfold finish startChecks Checker.start?
  rw [(timerAccepts_iff _).2 ho]
  cases (healthUrl o b.checked.settings.http).isSome <;> rfl

/-- Without one there is no timer for them. -/
theorem Begun.finish_of_zero (ho : o.healthCheckInterval = ⟨0, 0⟩) :
    (b.finish o).run.run steps =
      if (healthUrl o b.checked.settings.http).isSome then (.error .noTimer, steps)
      else (.ok (b.gateway o), steps) := by
  unfold finish startChecks Checker.start?
  rw [ho]
  cases (healthUrl o b.checked.settings.http).isSome <;> rfl

end

/-! ## The whole -/

/-- With whatever interval, a start fails before the health checks, or comes to them with the same
steps. -/
theorem start_atInterval (o : Options) (w : Surroundings) :
    (∃ e steps, e ≠ .noTimer ∧ ∀ d, start (atInterval o d) w = (.error e, steps)) ∨
      ∃ (b : Begun) (steps : List StartStep), ∀ d,
        start (atInterval o d) w = (b.finish (atInterval o d)).run.run steps := by
  obtain ⟨r, steps, hrun, hr⟩ := does_beforeChecks o w []
  have hstart (d : Duration) : start (atInterval o d) w =
      (beforeChecks o w >>= fun b => b.finish (atInterval o d)).run.run [] := by
    rw [start, startGateway_eq, beforeChecks_atInterval]
  cases r with
  | error e =>
    refine .inl ⟨e, steps, ?_, fun d => ?_⟩
    · rintro rfl
      exact absurd (hr _ rfl) (by decide)
    · rw [hstart]
      exact Start.run_bind_error hrun _
  | ok b =>
    refine .inr ⟨b, steps, fun d => ?_⟩
    rw [hstart]
    exact Start.run_bind_ok hrun _

/-- With an interval a start never fails for want of a timer. -/
theorem start_of_interval {o : Options} (ho : o.healthCheckInterval ≠ ⟨0, 0⟩)
    (w : Surroundings) :
    (start o w).1 ≠ .error .noTimer ∧
      ∀ g, (start o w).1 = .ok g → (healthUrl o g.settings.http).isSome = true →
        .checkHealth ∈ (start o w).2 ∧
          Checker.start? o.healthCheckInterval = some (.running 0) := by
  rcases start_atInterval o w with ⟨e, steps, he, hstart⟩ | ⟨b, steps, hstart⟩
  · have hstart : start o w = (.error e, steps) := hstart o.healthCheckInterval
    rw [hstart]
    refine ⟨fun h => he (Except.error.inj h), fun g hg => ?_⟩
    cases hg
  · have hstart : start o w = (b.finish o).run.run steps := hstart o.healthCheckInterval
    rw [hstart, Begun.finish_of_interval ho]
    refine ⟨nofun, ?_⟩
    rintro _ ⟨⟩ hurl
    rw [if_pos (show (healthUrl o b.checked.settings.http).isSome = true from hurl)]
    refine ⟨List.mem_append_right _ (List.mem_singleton_self _), ?_⟩
    rw [Checker.start?, if_pos ((timerAccepts_iff _).2 ho)]

/-- Without one it fails where it would begin the health checks with any other. -/
theorem start_of_zero {o : Options} (ho : o.healthCheckInterval = ⟨0, 0⟩) (w : Surroundings)
    {d : Duration} (hd : d ≠ ⟨0, 0⟩) :
    (start o w).1 = .error .noTimer ↔
      ∃ g, start (atInterval o d) w = (.ok g, (start o w).2 ++ [.checkHealth]) := by
  rcases start_atInterval o w with ⟨e, steps, he, hstart⟩ | ⟨b, steps, hstart⟩
  · have hstart' : start o w = (.error e, steps) := hstart o.healthCheckInterval
    rw [hstart', hstart d]
    refine ⟨fun h => absurd (Except.error.inj h) he, ?_⟩
    rintro ⟨g, hg⟩
    cases hg
  · have hstart' : start o w = (b.finish o).run.run steps := hstart o.healthCheckInterval
    have hurls : healthUrl (atInterval o d) b.checked.settings.http =
      healthUrl o b.checked.settings.http := rfl
    have hd' : (atInterval o d).healthCheckInterval ≠ ⟨0, 0⟩ := hd
    rw [hstart', hstart d, Begun.finish_of_zero ho, Begun.finish_of_interval hd', hurls]
    by_cases hurl : (healthUrl o b.checked.settings.http).isSome = true
    · rw [if_pos hurl, if_pos hurl]
      exact ⟨fun _ => ⟨_, rfl⟩, fun _ => rfl⟩
    · rw [if_neg hurl, if_neg hurl]
      refine ⟨nofun, ?_⟩
      rintro ⟨g, hg⟩
      simp at hg

/-- The command line takes every duration as the time between health checks.  With each but zero
there is a timer, and the checks begin if there is a URL to probe.  With zero the gateway fails for
want of a timer, and it does so exactly where it would begin the checks with any other: when all
else has been begun. -/
theorem fails_only_without_interval (o : Options) (w : Surroundings) :
    (∀ d, (∃ args o', Options.ofArguments args = .ok o' ∧ o'.healthCheckInterval = d) ↔
        ∃ text, Duration.ofText? text = some d) ∧
      (o.healthCheckInterval ≠ ⟨0, 0⟩ → (start o w).1 ≠ .error .noTimer ∧
        ∀ g, (start o w).1 = .ok g → (healthUrl o g.settings.http).isSome = true →
          .checkHealth ∈ (start o w).2 ∧
            Checker.start? o.healthCheckInterval = some (.running 0)) ∧
      (o.healthCheckInterval = ⟨0, 0⟩ → ∀ d, d ≠ ⟨0, 0⟩ →
        ((start o w).1 = .error .noTimer ↔
          ∃ g, start (atInterval o d) w = (.ok g, (start o w).2 ++ [.checkHealth]))) :=
  ⟨intervals_accepted, fun ho => start_of_interval ho w, fun ho _ hd => start_of_zero ho w hd⟩

/-- Plain HTTP at a port of its own choice, with this time between health checks. -/
def checkedOptions (d : Duration) : Options :=
  { disableHttps := true, httpAddress := "127.0.0.1:0", healthCheckInterval := d }

/-- A world in which there is nothing that plain HTTP would need. -/
def bareWorld : Surroundings where
  file := fun _ => none
  certificates := fun _ => none
  key := fun _ => none
  cache := fun _ => .missing
  canCreate := fun _ => false
  canBind := fun _ => false
  lookup := fun host => .error host
  relay := { accepts := fun _ => false, hostKey := ⟨[]⟩, authenticates := fun _ _ => false,
             forwards := fun _ _ => none }

/-- With a nanosecond between them the health checks begin; with nothing between them the gateway
fails at that point. -/
theorem checkedOptions_by_interval :
    .checkHealth ∈ (start (checkedOptions ⟨0, 1⟩) bareWorld).2 ∧
      (start (checkedOptions ⟨0, 0⟩) bareWorld).1 = .error .noTimer := by
  obtain ⟨-, hinterval, -⟩ := fails_only_without_interval (checkedOptions ⟨0, 1⟩) bareWorld
  obtain ⟨-, -, hzero⟩ := fails_only_without_interval (checkedOptions ⟨0, 0⟩) bareWorld
  refine ⟨((hinterval (by decide)).2 _ rfl rfl).1, ?_⟩
  exact (hzero rfl ⟨0, 1⟩ (by decide)).2 ⟨_, rfl⟩

/-- An interval of no time is accepted, and the gateway fails for want of a timer after it has begun
to serve plain HTTP. -/
theorem plain_http_begun_without_timer :
    Options.ofArguments ["--disable-https", "--http-address=127.0.0.1:0",
        "--health-check-interval=0s"] = .ok (checkedOptions ⟨0, 0⟩) ∧
      start (checkedOptions ⟨0, 0⟩) bareWorld =
        (.error .noTimer, [.servePlain { ip := .v4 ⟨127, 0, 0, 1⟩, port := 0 }]) :=
  ⟨rfl, rfl⟩

end Gatehouse.Launch
