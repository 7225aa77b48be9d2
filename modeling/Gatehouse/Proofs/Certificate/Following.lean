import Gatehouse.Certificate.Resolver
import Mathlib.Data.List.Induction

/-!
# The domains of ACME follow the routing table

A version is marked as seen before the table is read, and raised after the routes are put in place.
So the domains that are read under a version that stays the same are those of a table that was in
place under it; and no other table was put in place since, unless the version is still to be raised
for it.  How many replacements the keeper takes for one does not count.

    DomainKeeper.Steps          : all that a step can do
    DomainKeeper.CaughtUp       : no version is unseen, and none is still to be raised
    DomainKeeper.Tells          : which tables some domains may be those of
    DomainKeeper.InStep         : what is known of a keeper that has seen the version
    DomainKeeper.domains_follow : what follows, for every run
-/

namespace Gatehouse.Certificate

/-! ## Which names are for ACME -/

theorem mem_acmeDomains {manual : Store} {hosts : List String} {host : String} :
    host ∈ acmeDomains manual hosts ↔ host ∈ hosts ∧ Net.Ip.ofText? host = none ∧
      Tls.DnsName.isValid host = true ∧ manual.covers host = false := by
  simp [acmeDomains, and_assoc]

/-- A certificate comes from ACME only for a name that is routed and that no certificate on disk
covers. -/
theorem choose_eq_acme_iff {manual : Store} {table : RouteTable} {serverName : Option String} :
    choose manual table serverName = .acme ↔
      ∃ name, serverName = some name ∧ table.contains name = true ∧
        manual.covers name = false := by
  cases serverName with
  | none => simp [choose]
  | some name =>
    cases hget : manual.get? name <;> simp [choose, Store.covers, hget]

/-- The routes that are put in place by this, if any are. -/
def KeeperAct.put? : KeeperAct → Option Routes
  | .put routes => some routes
  | _ => none

namespace DomainKeeper

/-- A keeper that has seen nothing yet, while some replacements are going on. -/
def start (manual : Store) (table : RouteTable) (replacing : Nat) : DomainKeeper :=
  { manual, table, unannounced := replacing }

/-- The keeper waits, it has seen the version of the table, and `unannounced = 0`: no replacement is
between its two halves, that is, all routes that were put in place have been announced. -/
def CaughtUp (k : DomainKeeper) : Prop :=
  k.phase = .waiting ∧ k.seen = some k.table.version ∧ k.unannounced = 0

theorem run_append (k : DomainKeeper) (acts acts' : List KeeperAct) :
    k.run (acts ++ acts') = (k.run acts).run acts' := List.foldl_append

theorem run_concat (k : DomainKeeper) (acts : List KeeperAct) (a : KeeperAct) :
    k.run (acts ++ [a]) = (k.run acts).step a := run_append k acts [a]

/-! ## Steps -/

inductive Steps (k : DomainKeeper) : KeeperAct → DomainKeeper → Prop where
  | idle {a : KeeperAct} (h : a.put? = none) : Steps k a k
  | replaced (routes : Routes) : Steps k (.put routes)
      { k with table := k.table.put routes, unannounced := k.unannounced + 1 }
  | announced (h : 0 < k.unannounced) : Steps k .announce
      { k with table := k.table.announce, unannounced := k.unannounced - 1 }
  | noticed (hphase : k.phase = .waiting) (hunseen : k.seen ≠ some k.table.version) :
      Steps k .notice { k with seen := some k.table.version, phase := .reading }
  | read (hphase : k.phase = .reading) :
      Steps k .read { k with phase := .giving k.currentDomains }
  | gave {domains : List String} (hphase : k.phase = .giving domains) :
      Steps k .give { k with given := domains :: k.given, phase := .waiting }

theorem steps_step (k : DomainKeeper) (a : KeeperAct) : Steps k a (k.step a) := by
  cases a with
  | put routes => exact .replaced routes
  | announce =>
    simp only [step]
    split
    · next h => exact .announced h
    · exact .idle rfl
  | notice =>
    simp only [step]
    split
    · next hphase =>
      split
      · exact .idle rfl
      · next hunseen => exact .noticed hphase hunseen
    · exact .idle rfl
  | read =>
    simp only [step]
    split
    · next hphase => exact .read hphase
    · exact .idle rfl
  | give =>
    simp only [step]
    split
    · next domains hphase => exact .gave hphase
    · exact .idle rfl

variable {k t : DomainKeeper} {a : KeeperAct}

theorem Steps.manual (h : Steps k a t) : t.manual = k.manual := by
  cases h <;> rfl

theorem manual_run (k : DomainKeeper) (acts : List KeeperAct) :
    (k.run acts).manual = k.manual := by
  induction acts using List.reverseRecOn with
  | nil => rfl
  | append_singleton acts a ih =>
    rw [run_concat]
    exact (steps_step _ a).manual.trans ih

/-- No other routes are put in place, and none wait for the version to be raised, while the version
stays the same and there is nothing to wait for afterwards. -/
theorem Steps.sameRoutes (h : Steps k a t) (hversion : t.table.version = k.table.version)
    (hnone : t.unannounced = 0) : k.unannounced = 0 ∧ t.table.routes = k.table.routes := by
  cases h with
  | replaced => cases hnone
  | announced => exact absurd hversion (Nat.succ_ne_self _)
  | _ => exact ⟨hnone, rfl⟩

/-! ## In step with the table -/

/-- What is known of a keeper whose domains, if it has seen the version, are to have a property: no
version was seen that was not there, and if it is the present one then the property is that of the
domains given last, or of those about to be given. -/
structure InStep (good : List String → Prop) (k : DomainKeeper) : Prop where
  seen : ∀ version, k.seen = some version → version ≤ k.table.version
  waiting : k.seen = some k.table.version → k.phase = .waiting →
    ∃ domains, k.domains? = some domains ∧ good domains
  giving : k.seen = some k.table.version → ∀ domains, k.phase = .giving domains → good domains

/-- A keeper stays in step if domains stay good as long as the version stays the same, and those
of the table are good. -/
theorem Steps.inStep {good good' : List String → Prop} (h : Steps k a t) (hk : InStep good k)
    (hkept : t.table.version = k.table.version → ∀ domains, good domains → good' domains)
    (hcurrent : good' t.currentDomains) : InStep good' t := by
  have hsame (hversion : t.table.version = k.table.version)
      (hseen : k.seen = some k.table.version) (hphase : k.phase = .waiting) :
      ∃ domains, k.domains? = some domains ∧ good' domains :=
    (hk.waiting hseen hphase).imp fun domains => And.imp_right (hkept hversion domains)
  cases h with
  | idle => exact ⟨hk.seen, hsame rfl, fun hseen domains hphase =>
      hkept rfl domains (hk.giving hseen domains hphase)⟩
  | replaced routes => exact ⟨hk.seen, hsame rfl, fun hseen domains hphase =>
      hkept rfl domains (hk.giving hseen domains hphase)⟩
  | announced =>
    -- The version that was raised has not been seen.
    have hunseen : k.seen ≠ some (k.table.version + 1) := fun hseen =>
      absurd (hk.seen _ hseen) (Nat.not_succ_le_self _)
    exact ⟨fun version hseen => Nat.le_succ_of_le (hk.seen version hseen),
      fun hseen => absurd hseen hunseen, fun hseen => absurd hseen hunseen⟩
  | noticed =>
    refine ⟨fun version hseen => ?_, nofun, nofun⟩
    exact Nat.le_of_eq (Option.some.inj hseen).symm
  | read =>
    refine ⟨hk.seen, nofun, fun _ domains hphase => ?_⟩
    obtain rfl := KeeperPhase.giving.inj hphase
    exact hcurrent
  | gave hphase =>
    exact ⟨hk.seen, fun hseen _ => ⟨_, rfl, hkept rfl _ (hk.giving hseen _ hphase)⟩, nofun⟩

/-! ## Which table the domains are those of -/

/-- The domains are those of the table at a moment of the run since when the version is the same;
no other routes were put in place since, unless the version is still to be raised for them. -/
def Tells (k : DomainKeeper) (acts : List KeeperAct) (domains : List String) : Prop :=
  ∃ before, before <+: acts ∧ (k.run before).table.version = (k.run acts).table.version ∧
    domains = (k.run before).currentDomains ∧
    ((k.run acts).unannounced = 0 → (k.run before).table.routes = (k.run acts).table.routes)

variable {acts : List KeeperAct} {domains : List String}

theorem tells_currentDomains : Tells k acts (k.run acts).currentDomains :=
  ⟨acts, List.prefix_rfl, rfl, rfl, fun _ => rfl⟩

theorem Tells.concat (h : Tells k acts domains)
    (hversion : (k.run (acts ++ [a])).table.version = (k.run acts).table.version) :
    Tells k (acts ++ [a]) domains := by
  obtain ⟨before, hbefore, hsame, hdomains, hroutes⟩ := h
  refine ⟨before, hbefore.trans (List.prefix_append ..), hsame.trans hversion.symm, hdomains, ?_⟩
  intro hnone
  have hstep := steps_step (k.run acts) a
  rw [← run_concat] at hstep
  obtain ⟨hnone', hkept⟩ := hstep.sameRoutes hversion hnone
  exact (hroutes hnone').trans hkept.symm

/-- Whatever happens, the keeper is in step with the table. -/
theorem inStep_run (manual : Store) (table : RouteTable) (replacing : Nat)
    (acts : List KeeperAct) :
    InStep (Tells (start manual table replacing) acts)
      ((start manual table replacing).run acts) := by
  induction acts using List.reverseRecOn with
  | nil => exact ⟨nofun, nofun, nofun⟩
  | append_singleton acts a ih =>
    have hstep := steps_step ((start manual table replacing).run acts) a
    rw [← run_concat] at hstep
    exact hstep.inStep ih (fun hversion _ htells => htells.concat hversion) tells_currentDomains

/-! ## Catching up -/

theorem run_announce (k : DomainKeeper) :
    (k.run (.replicate k.unannounced .announce)).unannounced = 0 ∧
      (k.run (.replicate k.unannounced .announce)).table.routes = k.table.routes := by
  generalize hcount : k.unannounced = count
  induction count generalizing k with
  | zero => exact ⟨hcount, rfl⟩
  | succ count ih =>
    have hstep : k.step .announce =
        { k with table := k.table.announce, unannounced := count } := by
      simp [step, hcount]
    rw [List.replicate_succ, run, List.foldl_cons, ← run, hstep]
    exact ih _ rfl

/-- The steps that end whatever the keeper is doing, and then one round. -/
def rounds : List KeeperAct := [.read, .give, .notice, .read, .give]

theorem run_rounds (k : DomainKeeper) :
    (k.run rounds).phase = .waiting ∧ (k.run rounds).seen = some k.table.version ∧
      (k.run rounds).table = k.table ∧ (k.run rounds).unannounced = k.unannounced := by
  by_cases hseen : k.seen = some k.table.version <;> cases hphase : k.phase <;>
    simp [rounds, run, step, hphase, hseen]

/-- **The keeper catches up** when the table is not replaced any more. -/
theorem exists_caughtUp (k : DomainKeeper) :
    ∃ more, more.filterMap KeeperAct.put? = [] ∧ (k.run more).CaughtUp ∧
      (k.run more).table.routes = k.table.routes := by
  obtain ⟨hnone, hroutes⟩ := run_announce k
  obtain ⟨hphase, hseen, htable, hnone'⟩ :=
    run_rounds (k.run (.replicate k.unannounced .announce))
  refine ⟨.replicate k.unannounced .announce ++ rounds, ?_, ?_⟩
  · rw [List.filterMap_append, List.filterMap_replicate_of_none rfl]
    rfl
  · rw [run_append]
    exact ⟨⟨hphase, htable ▸ hseen, hnone'.trans hnone⟩, htable ▸ hroutes⟩

/-! ## All together -/

section

variable {manual : Store} {table : RouteTable} {replacing : Nat}

/-- **The domains follow the table.**  Whatever replacements were made, in whatever order their
halves and the steps of the keeper came,

* if the keeper waits and has seen the version, the list given last is that of a table which was
  in place under this version;
* if it has caught up, that is the table as it is, and each routed host that is a DNS name and no
  address is either covered by a certificate on disk or in the list, and not both;
* ACME is asked only for names that are routed and that no certificate on disk covers;
* if the table is not replaced any more the keeper catches up with it. -/
theorem domains_follow {acts : List KeeperAct}
    (hk : (start manual table replacing).run acts = k) :
    (k.phase = .waiting → k.seen = some k.table.version → ∃ before, before <+: acts ∧
      ((start manual table replacing).run before).table.version = k.table.version ∧
      k.domains? = some (acmeDomains manual
        ((start manual table replacing).run before).table.routes.hosts)) ∧
    (k.CaughtUp → ∃ domains, k.domains? = some domains ∧
      domains = acmeDomains manual k.table.routes.hosts ∧
      ∀ host ∈ k.table.routes.hosts, Tls.DnsName.isValid host = true →
        Net.Ip.ofText? host = none → Xor (manual.covers host = true) (host ∈ domains)) ∧
    (∀ serverName, choose manual k.table serverName = .acme ↔ ∃ name,
      serverName = some name ∧ k.table.contains name = true ∧ manual.covers name = false) ∧
    ∃ more, more.filterMap KeeperAct.put? = [] ∧ (k.run more).CaughtUp ∧
      (k.run more).table.routes = k.table.routes := by
  have hmanual (acts : List KeeperAct) :
      ((start manual table replacing).run acts).manual = manual :=
    manual_run (start manual table replacing) acts
  obtain ⟨-, htold, -⟩ := hk ▸ inStep_run manual table replacing acts
  refine ⟨?_, ?_, fun _ => choose_eq_acme_iff, exists_caughtUp k⟩
  · intro hphase hseen
    obtain ⟨domains, hgiven, before, hbefore, hversion, rfl, -⟩ := htold hseen hphase
    refine ⟨before, hbefore, hversion.trans (congrArg (·.table.version) hk), ?_⟩
    rw [hgiven, currentDomains, hmanual]
  · rintro ⟨hphase, hseen, hnone⟩
    obtain ⟨domains, hgiven, before, -, -, hdomains, hroutes⟩ := htold hseen hphase
    rw [hk] at hroutes
    rw [currentDomains, hmanual, hroutes hnone] at hdomains
    refine ⟨domains, hgiven, hdomains, fun host hhost hname hip => ?_⟩
    rw [hdomains, mem_acmeDomains]
    cases hcovers : manual.covers host <;> simp [Xor, hhost, hname, hip]

/-- Two replacements, the halves of the first around the second, which the keeper sees as one. -/
def crossing : List KeeperAct :=
  [.notice, .put ⟨[("a.example", .home)]⟩, .put ⟨[("b.example", .home)]⟩, .announce,
    .read, .announce, .give, .notice, .read, .give]

theorem domains_follow_crossing : ∃ k, (start .empty ⟨.empty, 0⟩ 0).run crossing = k ∧
    k.CaughtUp ∧ k.domains? = some ["b.example"] ∧ k.table.version = 2 := by
  obtain ⟨-, hcurrent, -⟩ :=
    domains_follow (rfl : (start .empty ⟨.empty, 0⟩ 0).run crossing = _)
  have hcaught : ((start .empty ⟨.empty, 0⟩ 0).run crossing).CaughtUp := ⟨rfl, rfl, rfl⟩
  obtain ⟨domains, hgiven, hdomains, -⟩ := hcurrent hcaught
  refine ⟨_, rfl, hcaught, hgiven.trans (congrArg some (hdomains.trans ?_)), rfl⟩
  decide +kernel

end

end DomainKeeper

end Gatehouse.Certificate
