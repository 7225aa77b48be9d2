import Gatehouse.Proofs.Route.Ordering
import Gatehouse.Route.Reload
import Mathlib.Data.List.Induction

/-!
# No reload is lost

The flag is lowered before the file is read, so the reloader cannot miss a write: either the write
comes before the reading, or its event raises the flag after it was lowered.  At any time the table
is up to date, or something is still to be done that will bring it up to date.

The entries of a file may be taken in another order each time that it is loaded.

    Reloader.Quiet, UpToDate : nothing is to be done, and the table is that of the file
    Reloader.Steps, Runs     : all that a step and a run can do
    Reloader.InStep          : the table is up to date, or something is still to be done
    Reloader.Had             : the table is that of one content which the file has had
    Reloader.no_reload_lost  : what follows from both, for every run
-/

namespace Gatehouse

/-- What the file holds from this on, if this changes it. -/
def ReloadAct.written? : ReloadAct → Option (Option Octets)
  | .write content => some content
  | _ => none

namespace Reloader

/-- No event is on its way, none is unseen, and the file is not being reloaded. -/
def Quiet (r : Reloader) : Prop := r.undelivered = 0 ∧ r.flag = false ∧ r.phase = .waiting

/-- The table is that of the file, if the file loads. -/
def UpToDate (orders : Routes.Orders) (r : Reloader) : Prop :=
  (∃ routes, Routes.Loads orders r.file routes) →
    ∃ routes, Routes.Loads orders r.file routes ∧ r.table.routes = r.base.overlay routes

theorem run_append (r : Reloader) (acts acts' : List ReloadAct) :
    r.run (acts ++ acts') = (r.run acts).run acts' := List.foldl_append

theorem run_concat (r : Reloader) (acts : List ReloadAct) (a : ReloadAct) :
    r.run (acts ++ [a]) = (r.run acts).step a := run_append r acts [a]

/-! ## Steps -/

/-- All that a step can do. -/
inductive Steps (orders : Routes.Orders) (r : Reloader) : ReloadAct → Reloader → Prop where
  | idle {a : ReloadAct} (h : a.written? = none) : Steps orders r a r
  | registered : Steps orders r .register { r with watching := true }
  | written (content : Option Octets) : Steps orders r (.write content)
      { r with file := content, undelivered := r.undelivered + if r.watching then 1 else 0 }
  | delivered (h : 0 < r.undelivered) :
      Steps orders r .deliver { r with undelivered := r.undelivered - 1, flag := true }
  | noticed (hphase : r.phase = .waiting) (hflag : r.flag = true) :
      Steps orders r .notice { r with flag := false, phase := .debouncing }
  | settled (hphase : r.phase = .debouncing) :
      Steps orders r .settle { r with flag := false, phase := .reading }
  | read (hphase : r.phase = .reading) : Steps orders r .read { r with phase := .applying r.file }
  | applied {content : Option Octets} {routes : Routes} (hphase : r.phase = .applying content)
      (hload : Routes.Loads orders content routes) :
      Steps orders r .apply { r with table := r.table.replace (r.base.overlay routes), phase := .waiting }
  | refused {content : Option Octets} (hphase : r.phase = .applying content)
      (hload : ∀ routes, ¬Routes.Loads orders content routes) :
      Steps orders r .apply { r with phase := .waiting }

theorem steps_step (orders : Routes.Orders) (r : Reloader) (a : ReloadAct) :
    Steps orders r a (r.step a) := by
  cases a with
  | register => exact .registered
  | write content => exact .written content
  | deliver =>
    simp only [step]
    split
    · next h => exact .delivered h
    · exact .idle rfl
  | notice =>
    simp only [step]
    split
    · next hphase =>
      split
      · next hflag => exact .noticed hphase hflag
      · exact .idle rfl
    · exact .idle rfl
  | settle =>
    simp only [step]
    split
    · next hphase => exact .settled hphase
    · exact .idle rfl
  | read =>
    simp only [step]
    split
    · next hphase => exact .read hphase
    · exact .idle rfl
  | apply =>
    simp only [step]
    split
    · next content hphase =>
      unfold tableOf
      cases hload : Routes.load r.path content with
      | ok routes => exact .applied hphase (Routes.loads_of_load hload)
      | error error =>
        refine .refused hphase fun routes hloads => ?_
        obtain ⟨routes', hload'⟩ := Routes.exists_load_of_loads r.path hloads
        rw [hload] at hload'
        cases hload'
    · exact .idle rfl

/-- All that a run can do. -/
inductive Runs (orders : Routes.Orders) (r : Reloader) : List ReloadAct → Reloader → Prop where
  | nil : Runs orders r [] r
  | snoc {acts : List ReloadAct} {a : ReloadAct} {t u : Reloader} (before : Runs orders r acts t)
      (last : Steps orders t a u) : Runs orders r (acts ++ [a]) u

/-- The run in which the entries are taken as they are written. -/
theorem runs_run (orders : Routes.Orders) (r : Reloader) (acts : List ReloadAct) :
    Runs orders r acts (r.run acts) := by
  induction acts using List.reverseRecOn with
  | nil => exact .nil
  | append_singleton acts a ih =>
    rw [run_concat]
    exact ih.snoc (steps_step orders _ a)

variable {orders : Routes.Orders} {r t : Reloader} {a : ReloadAct} {acts : List ReloadAct}

/-- What a reloader never changes. -/
theorem Steps.fixed (h : Steps orders r a t) :
    t.base = r.base ∧ (r.watching = true → t.watching = true) := by
  cases h with
  | registered => exact ⟨rfl, fun _ => rfl⟩
  | _ => exact ⟨rfl, id⟩

theorem Runs.fixed (h : Runs orders r acts t) :
    t.base = r.base ∧ (r.watching = true → t.watching = true) := by
  induction h with
  | nil => exact ⟨rfl, id⟩
  | snoc _ last ih =>
    obtain ⟨hbase, hwatching⟩ := last.fixed
    exact ⟨hbase.trans ih.1, hwatching ∘ ih.2⟩

/-! ## In step with the file -/

/-- The table is up to date, or something is still to be done that leads there. -/
def InStep (orders : Routes.Orders) (r : Reloader) : Prop :=
  0 < r.undelivered ∨ r.flag = true ∨
    match r.phase with
    | .waiting => r.UpToDate orders
    | .debouncing => True
    | .reading => True
    | .applying content => content = r.file

theorem inStep_of_upToDate (hphase : r.phase = .waiting) (h : r.UpToDate orders) :
    (r.step .register).InStep orders := by
  refine .inr (.inr ?_)
  simp only [step, hphase]
  exact h

/-- A reloader that watches its file stays in step with it. -/
theorem Steps.inStep (h : Steps orders r a t) (hwatching : r.watching = true)
    (hr : r.InStep orders) : t.InStep orders := by
  cases h with
  | idle => exact hr
  | registered => exact hr
  | written content =>
    refine .inl ?_
    show 0 < r.undelivered + if r.watching then 1 else 0
    rw [if_pos hwatching]
    exact Nat.succ_pos _
  | delivered => exact .inr (.inl rfl)
  | noticed => exact .inr (.inr trivial)
  | settled => exact .inr (.inr trivial)
  | read => exact .inr (.inr rfl)
  | applied hphase hload =>
    refine hr.imp_right (Or.imp_right fun hsame => ?_)
    simp only [hphase] at hsame
    subst hsame
    exact fun _ => ⟨_, hload, rfl⟩
  | refused hphase hload =>
    refine hr.imp_right (Or.imp_right fun hsame => ?_)
    simp only [hphase] at hsame
    subst hsame
    rintro ⟨routes, hroutes⟩
    exact absurd hroutes (hload routes)

theorem Runs.inStep (h : Runs orders r acts t) (hwatching : r.watching = true)
    (hr : r.InStep orders) : t.InStep orders := by
  induction h with
  | nil => exact hr
  | snoc before last ih => exact last.inStep (before.fixed.2 hwatching) ih

theorem InStep.upToDate (hr : r.InStep orders) (hquiet : r.Quiet) : r.UpToDate orders := by
  obtain ⟨hdelivered, hflag, hphase⟩ := hquiet
  rw [InStep, hdelivered, hflag, hphase] at hr
  simpa using hr

/-! ## One content at a time -/

/-- The table is the one from the start, or that of one content that the file has had; and no other
content is going to be applied. -/
structure Had (orders : Routes.Orders) (initial : RouteTable) (contents : List (Option Octets))
    (r : Reloader) : Prop where
  file : r.file ∈ contents
  applying : ∀ content, r.phase = .applying content → content ∈ contents
  table : r.table = initial ∨ ∃ content ∈ contents, ∃ routes,
    Routes.Loads orders content routes ∧ r.table.routes = r.base.overlay routes

def contents (r : Reloader) (acts : List ReloadAct) : List (Option Octets) :=
  r.file :: acts.filterMap ReloadAct.written?

variable {initial : RouteTable} {contents : List (Option Octets)}

theorem Had.mono (h : Had orders initial contents r) {more : List (Option Octets)} :
    Had orders initial (contents ++ more) r where
  file := List.mem_append_left _ h.file
  applying content hphase := List.mem_append_left _ (h.applying content hphase)
  table := h.table.imp_right fun ⟨content, hcontent, hroutes⟩ =>
    ⟨content, List.mem_append_left _ hcontent, hroutes⟩

theorem Steps.had (h : Steps orders r a t) (hr : Had orders initial contents r) :
    Had orders initial (contents ++ a.written?.toList) t := by
  have hmore : Had orders initial (contents ++ a.written?.toList) r := hr.mono
  cases h with
  | idle => exact hmore
  | registered => exact { hmore with }
  | written content =>
    exact { hmore with file := List.mem_append_right _ (List.mem_singleton_self content) }
  | delivered => exact { hmore with }
  | noticed => exact { hmore with applying := nofun }
  | settled => exact { hmore with applying := nofun }
  | read =>
    refine { hmore with applying := fun content hcontent => ?_ }
    obtain rfl := ReloadPhase.applying.inj hcontent
    exact hmore.file
  | applied hphase hload =>
    exact { hmore with
      applying := nofun
      table := .inr ⟨_, hmore.applying _ hphase, _, hload, rfl⟩ }
  | refused => exact { hmore with applying := nofun }

theorem Runs.had (h : Runs orders r acts t) (hphase : r.phase = .waiting) :
    Had orders r.table (r.contents acts) t := by
  induction h with
  | nil =>
    refine ⟨List.mem_singleton_self _, fun content hcontent => ?_, .inl rfl⟩
    cases hphase.symm.trans hcontent
  | @snoc acts a t u _ last ih =>
    have hmore : r.contents (acts ++ [a]) = r.contents acts ++ a.written?.toList := by
      simp only [Reloader.contents, List.filterMap_append, List.cons_append]
      cases ha : a.written? <;> simp [ha]
    rw [hmore]
    exact last.had ih

/-- Nothing changes the table but the content that is applied, if it loads. -/
theorem Steps.table (h : Steps orders r a t) :
    t.table = r.table ∨ ∃ content routes, r.phase = .applying content ∧
      Routes.Loads orders content routes ∧
      t.table = r.table.replace (r.base.overlay routes) := by
  cases h with
  | applied hphase hload => exact .inr ⟨_, _, hphase, hload, rfl⟩
  | _ => exact .inl rfl

/-! ## Coming to rest -/

/-- The steps that end whatever the reloader is doing. -/
def finish : List ReloadAct := [.settle, .read, .apply]

theorem run_finish (r : Reloader) :
    (r.run finish).phase = .waiting ∧ (r.run finish).undelivered = r.undelivered ∧
      (r.run finish).file = r.file ∧ (r.flag = false → (r.run finish).flag = false) := by
  cases hphase : r.phase <;> simp [finish, run, step, hphase]

theorem run_deliver (r : Reloader) (hphase : r.phase = .waiting) :
    (r.run (.replicate r.undelivered .deliver)).undelivered = 0 ∧
      (r.run (.replicate r.undelivered .deliver)).phase = .waiting ∧
      (r.run (.replicate r.undelivered .deliver)).file = r.file := by
  generalize hcount : r.undelivered = count
  induction count generalizing r with
  | zero => exact ⟨hcount, hphase, rfl⟩
  | succ count ih =>
    have hstep : r.step .deliver = { r with undelivered := count, flag := true } := by
      simp [step, hcount]
    rw [List.replicate_succ, run, List.foldl_cons, ← run, hstep]
    exact ih _ hphase rfl

theorem step_notice (r : Reloader) (hphase : r.phase = .waiting) :
    (r.step .notice).flag = false ∧ (r.step .notice).undelivered = r.undelivered ∧
      (r.step .notice).file = r.file := by
  cases hflag : r.flag <;> simp [step, hphase, hflag]

/-- **The reloader comes to rest** when nothing more is written. -/
theorem exists_quiet (r : Reloader) :
    ∃ more, more.filterMap ReloadAct.written? = [] ∧ (r.run more).Quiet ∧
      (r.run more).file = r.file := by
  let events : List ReloadAct := .replicate (r.run finish).undelivered .deliver
  obtain ⟨hwaits, -, hfile, -⟩ := run_finish r
  obtain ⟨hdelivered, hwaits, hfile₁⟩ := run_deliver (r.run finish) hwaits
  obtain ⟨hflag, hkept, hfile₂⟩ := step_notice ((r.run finish).run events) hwaits
  obtain ⟨hwaits, hkept₁, hfile₃, hflag₁⟩ := run_finish (((r.run finish).run events).step .notice)
  refine ⟨finish ++ (events ++ .notice :: finish), ?_, ?_⟩
  · rw [List.filterMap_append, List.filterMap_append, List.filterMap_cons_none rfl,
      List.filterMap_replicate_of_none rfl]
    rfl
  · rw [run_append, run_append]
    exact ⟨⟨hkept₁.trans (hkept.trans hdelivered), hflag₁ hflag, hwaits⟩,
      hfile₃.trans (hfile₂.trans (hfile₁.trans hfile))⟩

/-! ## All together -/

section

variable {path : String} {base : Routes} {file : Option Octets}

/-- A reloader that has loaded its file for the first time. -/
def Started (orders : Routes.Orders) (path : String) (base : Routes) (file : Option Octets)
    (r : Reloader) : Prop :=
  ∃ routes, Routes.Loads orders file routes ∧
    r = { path, base, file, table := { routes := base.overlay routes } }

theorem started_of_start (orders : Routes.Orders) (h : start path base file = .ok r) :
    Started orders path base file r := by
  unfold start at h
  cases hload : Routes.load path file with
  | error error =>
    rw [hload] at h
    cases h
  | ok routes =>
    rw [hload] at h
    exact ⟨routes, Routes.loads_of_load hload, (Except.ok.inj h).symm⟩

/-- At first nothing is to be done. -/
theorem Started.quiet (h : Started orders path base file r) : r.Quiet ∧ r.UpToDate orders := by
  obtain ⟨routes, hload, rfl⟩ := h
  exact ⟨⟨rfl, rfl, rfl⟩, fun _ => ⟨routes, hload, rfl⟩⟩

/-- **No reload is lost.**  In every run of a reloader that watches its file, in whatever order the
entries of the file are taken each time,

* whenever nothing is to be done and the file loads, the table is that of the file;
* at any time the table is the one from the start or that of one content that the file has had;
* a step leaves the table as it is unless it applies such a content, which has to load;
* if nothing more is written the reloader comes to rest. -/
theorem no_reload_lost (hstart : Started orders path base file r)
    (ht : Runs orders (r.step .register) acts t) :
    (t.Quiet → (∃ routes, Routes.Loads orders t.file routes) →
      ∃ routes, Routes.Loads orders t.file routes ∧ t.table.routes = base.overlay routes) ∧
    (t.table = r.table ∨ ∃ content ∈ r.contents acts, ∃ routes,
      Routes.Loads orders content routes ∧ t.table.routes = base.overlay routes) ∧
    (∀ a u, Steps orders t a u → u.table = t.table ∨ ∃ content ∈ r.contents acts, ∃ routes,
      t.phase = .applying content ∧ Routes.Loads orders content routes ∧
      u.table = t.table.replace (base.overlay routes)) ∧
    ∃ more, more.filterMap ReloadAct.written? = [] ∧ (t.run more).Quiet ∧
      (t.run more).file = t.file := by
  obtain ⟨hquiet, hupToDate⟩ := hstart.quiet
  have hinStep : t.InStep orders := ht.inStep rfl (inStep_of_upToDate hquiet.2.2 hupToDate)
  have hhad : Had orders r.table (r.contents acts) t := ht.had hquiet.2.2
  have hbase : t.base = base := by
    obtain ⟨routes, -, rfl⟩ := hstart
    exact ht.fixed.1
  rw [← hbase]
  refine ⟨hinStep.upToDate, hhad.table, fun a u hstep => ?_, exists_quiet t⟩
  refine hstep.table.imp_right ?_
  rintro ⟨content, routes, hphase, hload, htable⟩
  exact ⟨content, hhad.applying content hphase, routes, hphase, hload, htable⟩

end

section

def noRoutes : Option Octets := some (.ofText "\x7b\x7d")

/-- One with a page. -/
def onePage : Option Octets := some (.ofText "\x7b\"a.example\": \"home\"\x7d")

/-- One with another page. -/
def otherPage : Option Octets := some (.ofText "\x7b\"b.example\": \"home\"\x7d")

/-- The file is written again between the reading and the replacement of the table. -/
def hastySave : List ReloadAct :=
  [.write onePage, .deliver, .notice, .settle, .read, .write otherPage, .apply, .deliver, .notice,
    .settle, .read, .apply]

theorem hastySave_not_lost : ∃ r t routes,
    Started .any "routes.json" .empty noRoutes r ∧ Runs .any (r.step .register) hastySave t ∧
    t.Quiet ∧ t.file = otherPage ∧ Routes.Loads .any otherPage routes ∧
    t.table.routes = Routes.empty.overlay routes := by
  obtain ⟨r, hr⟩ : ∃ r, start "routes.json" .empty noRoutes = .ok r := ⟨_, rfl⟩
  obtain ⟨routes, hroutes⟩ : ∃ routes, Routes.load "routes.json" otherPage = .ok routes := ⟨_, rfl⟩
  have hstart := started_of_start .any hr
  have hrun := runs_run .any (r.step .register) hastySave
  have hend : ((r.step .register).run hastySave).Quiet ∧
      ((r.step .register).run hastySave).file = otherPage := by
    obtain ⟨routes, -, rfl⟩ := hstart
    exact ⟨⟨rfl, rfl, rfl⟩, rfl⟩
  obtain ⟨routes', hloads, htable⟩ := (no_reload_lost hstart hrun).1 hend.1
    ⟨routes, hend.2 ▸ Routes.loads_of_load hroutes⟩
  exact ⟨r, _, routes', hstart, hrun, hend.1, hend.2, hend.2 ▸ hloads, htable⟩

end

end Reloader

end Gatehouse
