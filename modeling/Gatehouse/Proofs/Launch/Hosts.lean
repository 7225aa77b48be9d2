import Gatehouse.Launch.Settings
import Gatehouse.Proofs.Tables
import Gatehouse.Proofs.Text.Trimming

/-!
# Hosts in the options

Forwarded hosts and public hosts are given as texts, which may have blanks around them.  The hosts
of routes are trimmed before they are brought into canonical form; these are not.  As no server name
has blanks around it, a host that has is never asked for: the gateway decides as if the entries with
such hosts were not there.

    asWritten                    : the policy that the options write down
    withoutSpaced                : the options without the hosts that have blanks around them
    lookup_of_forwardsOf         : the address that is read for a host
    decide_eq_of_trimmed         : the decisions of the gateway
    spaced_hosts_do_not_count    : all that is decided by the hosts in the options
-/

namespace Gatehouse

open Text Cli

/-- A decision depends on what the rules say of the server name only. -/
theorem Inspect.Policy.decide_congr {p q : Policy} {hello : Tls.Hello}
    (hprivate : p.privateMode = q.privateMode)
    (hforward : ∀ name, hello.serverName = some name →
      p.forwardFor? (Host.canonical name) = q.forwardFor? (Host.canonical name))
    (hpublic : ∀ name, hello.serverName = some name →
      (Host.canonical name ∈ p.publicHosts ↔ Host.canonical name ∈ q.publicHosts))
    (provenance : Provenance) : p.decide provenance hello = q.decide provenance hello := by
  unfold decide
  cases hname : hello.serverName with
  | none => simp only [hprivate, Option.map_none, Option.any_none, Option.bind_none]
  | some name =>
    have hcontains : p.publicHosts.contains (Host.canonical name) =
        q.publicHosts.contains (Host.canonical name) := by
      rw [Bool.eq_iff_iff, List.contains_iff_mem, List.contains_iff_mem]
      exact hpublic name hname
    simp only [hprivate, Option.map_some, Option.any_some, Option.bind_some, hcontains,
      hforward name hname]

namespace Launch

/-! ## What is written -/

/-- The entries `HOST=ADDRESS` that are written. -/
def entriesOf (forwards : List String) : List (String × String) := forwards.filterMap (cut '=')

/-- The policy that the options write down, when hosts are read as those of routes are. -/
def asWritten (o : Options) : Inspect.Policy :=
  { forwards := ((entriesOf o.forwards).map fun e => (Host.canonicalTrimmed e.1, trim e.2)).reverse
    privateMode := o.privateMode
    publicHosts := o.publicHosts.map Host.canonicalTrimmed
    helloTimeout := o.clientHelloTimeout.toMillis }

/-- Whether the host of an entry is trimmed. -/
def hasTrimmedHost (forward : String) : Bool := (cut '=' forward).all fun e => IsTrimmed e.1

/-- The options without the hosts that have blanks around them. -/
def withoutSpaced (o : Options) : Options :=
  { o with
    forwards := o.forwards.filter hasTrimmedHost
    publicHosts := o.publicHosts.filter fun host => IsTrimmed host }

/-- The server name, if there is one, has no blanks around it. -/
def HasTrimmedName (hello : Tls.Hello) : Prop :=
  ∀ name, hello.serverName = some name → IsTrimmed (Host.canonical name)

/-! ## What is read -/

theorem forwardOf_eq_ok {forward host address : String}
    (h : forwardOf forward = .ok (host, address)) :
    ∃ e, cut '=' forward = some e ∧ trim e.1 ≠ "" ∧ host = Host.canonical e.1 ∧
      address = trim e.2 := by
  unfold forwardOf at h
  split at h
  · next written own hcut =>
    by_cases hblank : (trim written = "" || trim own = "") = true
    · rw [if_pos hblank] at h
      cases h
    · rw [if_neg hblank] at h
      cases h
      refine ⟨_, hcut, fun hempty => hblank ?_, rfl, rfl⟩
      rw [hempty]
      rfl
  · cases h

/-- Reading goes on from what was read before; what is read later stands in front. -/
theorem lookup_of_foldlM {forwards : List String} {before fs : List (String × String)}
    (h : forwards.foldlM (fun fs f => do
      let (host, address) ← forwardOf f
      return (host, address) :: fs.filter (·.1 ≠ host)) before = .ok fs) (name : String) :
    fs.lookup name =
      (((entriesOf forwards).map fun e => (Host.canonical e.1, trim e.2)).reverse ++ before).lookup
        name := by
  induction forwards generalizing before with
  | nil =>
    cases h
    rfl
  | cons forward forwards ih =>
    rw [List.foldlM_cons] at h
    obtain ⟨read, hread, h⟩ := exists_of_bind h
    obtain ⟨⟨host, address⟩, hforward, hread⟩ := exists_of_bind hread
    obtain ⟨e, hcut, -, rfl, rfl⟩ := forwardOf_eq_ok hforward
    obtain rfl := Except.ok.inj hread
    have hentries : entriesOf (forward :: forwards) = e :: entriesOf forwards :=
      List.filterMap_cons_some hcut
    have hbefore : ((Host.canonical e.1, trim e.2) ::
        before.filter (·.1 ≠ Host.canonical e.1)).lookup name =
        ((Host.canonical e.1, trim e.2) :: before).lookup name := by
      by_cases hname : name = Host.canonical e.1
      · rw [hname, List.lookup_cons_self, List.lookup_cons_self]
      · rw [lookup_cons_of_ne hname, lookup_cons_of_ne hname, lookup_filter_ne hname]
    rw [ih h, hentries, List.map_cons, List.reverse_cons, List.append_assoc, List.singleton_append,
      List.lookup_append, List.lookup_append, hbefore]

/-- The last entry for a host gives its address. -/
theorem lookup_of_forwardsOf {forwards : List String} {fs : List (String × String)}
    (h : forwardsOf forwards = .ok fs) (name : String) :
    fs.lookup name =
      ((entriesOf forwards).map fun e => (Host.canonical e.1, trim e.2)).reverse.lookup name := by
  rw [lookup_of_foldlM h name, List.append_nil]

theorem exists_entry_of_forwardsOf {forwards : List String} {fs : List (String × String)}
    (h : forwardsOf forwards = .ok fs) :
    ∀ f ∈ forwards, ∃ e, cut '=' f = some e ∧ trim e.1 ≠ "" := by
  unfold forwardsOf at h
  generalize [] = before at h
  induction forwards generalizing before with
  | nil => nofun
  | cons forward forwards ih =>
    rw [List.foldlM_cons] at h
    obtain ⟨read, hread, h⟩ := exists_of_bind h
    obtain ⟨⟨host, address⟩, hforward, -⟩ := exists_of_bind hread
    obtain ⟨e, hcut, hblank, -⟩ := forwardOf_eq_ok hforward
    intro f hf
    rcases List.mem_cons.mp hf with rfl | hf
    · exact ⟨e, hcut, hblank⟩
    · exact ih _ h f hf

theorem entriesOf_filter (forwards : List String) :
    entriesOf (forwards.filter hasTrimmedHost) =
      (entriesOf forwards).filter fun e => IsTrimmed e.1 := by
  rw [entriesOf, entriesOf, List.filterMap_filter, List.filter_filterMap]
  refine congrArg (fun read => forwards.filterMap read) (funext fun forward => ?_)
  unfold hasTrimmedHost
  cases cut '=' forward with
  | none => rfl
  | some e => by_cases htrimmed : IsTrimmed e.1 <;> simp [htrimmed, Option.filter_some]

/-! ## What is decided -/

/-- A host counts for a name as it would if it had to be trimmed to count. -/
def CountsIfTrimmed (host name : String) : Prop :=
  Host.canonical host = name ↔ IsTrimmed host ∧ Host.canonicalTrimmed host = name

theorem lookup_of_counts {forwards : List String} {fs : List (String × String)}
    (h : forwardsOf forwards = .ok fs) {name : String}
    (hcounts : ∀ e ∈ entriesOf forwards, CountsIfTrimmed e.1 name) :
    fs.lookup name =
      ((entriesOf (forwards.filter hasTrimmedHost)).map fun e =>
        (Host.canonicalTrimmed e.1, trim e.2)).reverse.lookup name := by
  rw [lookup_of_forwardsOf h, entriesOf_filter, ← List.map_reverse, ← List.map_reverse,
    ← List.filter_reverse]
  refine lookup_congr (fun e he => ?_) fun _ _ => rfl
  rw [decide_eq_true_iff]
  exact hcounts e (List.mem_reverse.mp he)

theorem mem_of_counts {hosts : List String} {name : String}
    (hcounts : ∀ host ∈ hosts, CountsIfTrimmed host name) :
    name ∈ hosts.map Host.canonical ↔
      name ∈ (hosts.filter fun host => IsTrimmed host).map Host.canonicalTrimmed := by
  rw [List.mem_map, List.mem_map]
  constructor
  · rintro ⟨host, hmem, hname⟩
    obtain ⟨htrimmed, hname⟩ := (hcounts host hmem).mp hname
    exact ⟨host, List.mem_filter.mpr ⟨hmem, decide_eq_true htrimmed⟩, hname⟩
  · rintro ⟨host, hmem, hname⟩
    obtain ⟨hmem, htrimmed⟩ := List.mem_filter.mp hmem
    exact ⟨host, hmem, (hcounts host hmem).mpr ⟨of_decide_eq_true htrimmed, hname⟩⟩

def hostsOf (o : Options) : List String := (entriesOf o.forwards).map (·.1) ++ o.publicHosts

section

variable {o : Options} {s : Settings} (h : Settings.ofOptions o = .ok s)

include h

theorem decide_of_counts {hello : Tls.Hello}
    (hcounts : ∀ name, hello.serverName = some name →
      ∀ host ∈ hostsOf o, CountsIfTrimmed host (Host.canonical name)) (provenance : Provenance) :
    s.policy.decide provenance hello = (asWritten (withoutSpaced o)).decide provenance hello := by
  obtain ⟨-, -, fs, hforwards, hpolicy⟩ := Settings.of_ofOptions h
  rw [hpolicy]
  refine Inspect.Policy.decide_congr (p := policyOf o fs) (q := asWritten (withoutSpaced o)) rfl
    (fun name hname => ?_) (fun name hname => ?_) provenance
  · refine lookup_of_counts hforwards fun e he => hcounts name hname e.1 ?_
    exact List.mem_append_left _ (List.mem_map_of_mem he)
  · refine mem_of_counts fun host hhost => hcounts name hname host ?_
    exact List.mem_append_right _ hhost

/-- Hosts with blanks around them do not count for a server name. -/
theorem decide_of_trimmed {hello : Tls.Hello} (hname : HasTrimmedName hello)
    (provenance : Provenance) :
    s.policy.decide provenance hello = (asWritten (withoutSpaced o)).decide provenance hello :=
  decide_of_counts h (fun name hsome _ _ => Host.canonical_eq_iff (hname name hsome)) provenance

end

theorem withoutSpaced_eq_self {o : Options} (h : ∀ host ∈ hostsOf o, IsTrimmed host) :
    withoutSpaced o = o := by
  have hforwards : o.forwards.filter hasTrimmedHost = o.forwards := by
    rw [List.filter_eq_self]
    intro forward hforward
    unfold hasTrimmedHost
    cases hcut : cut '=' forward with
    | none => rfl
    | some e =>
      have he : e ∈ entriesOf o.forwards := List.mem_filterMap.mpr ⟨forward, hforward, hcut⟩
      exact decide_eq_true (h e.1 (List.mem_append_left _ (List.mem_map_of_mem he)))
  have hpublic : (o.publicHosts.filter fun host => IsTrimmed host) = o.publicHosts :=
    List.filter_eq_self.mpr fun host hhost => decide_eq_true (h host (List.mem_append_right _ hhost))
  rw [withoutSpaced, hforwards, hpublic]

/-- **Hosts with blanks around them do not count.**  For a server name, which has none around it,
the gateway decides as if they were not in the options; if there are none, it decides as written,
for whatever server name.  A forward whose host is nothing but points is accepted like others. -/
theorem spaced_hosts_do_not_count {o : Options} {s : Settings} (h : Settings.ofOptions o = .ok s) :
    (∀ hello, HasTrimmedName hello → ∀ provenance,
      s.policy.decide provenance hello = (asWritten (withoutSpaced o)).decide provenance hello) ∧
    ((∀ host ∈ hostsOf o, IsTrimmed host) → ∀ hello provenance,
      s.policy.decide provenance hello = (asWritten o).decide provenance hello) ∧
    ∀ f ∈ o.forwards, ∃ e, cut '=' f = some e ∧ trim e.1 ≠ "" ∧
      (Host.canonicalTrimmed e.1 = "" ↔ ∀ c ∈ (trim e.1).toList, c = '.') := by
  refine ⟨fun hello => decide_of_trimmed h, fun htrimmed hello provenance => ?_, fun f hf => ?_⟩
  · have hcounts : ∀ name, hello.serverName = some name →
        ∀ host ∈ hostsOf o, CountsIfTrimmed host (Host.canonical name) := by
      intro name _ host hhost
      rw [CountsIfTrimmed, Host.canonicalTrimmed, htrimmed host hhost]
      exact (and_iff_right (htrimmed host hhost)).symm
    have hall := decide_of_counts h hcounts provenance
    rwa [withoutSpaced_eq_self htrimmed] at hall
  · obtain ⟨-, -, fs, hforwards, -⟩ := Settings.of_ofOptions h
    obtain ⟨e, hcut, hblank⟩ := exists_entry_of_forwardsOf hforwards f hf
    exact ⟨e, hcut, hblank, Host.canonicalTrimmed_eq_empty_iff e.1⟩

/-- The hello of a browser that asks for a name. -/
def helloFor (name : String) : Tls.Hello := ⟨some name, [Octets.ofText "http/1.1"]⟩

/-- A forward for the same host as two others, without a blank, and public hosts of both kinds. -/
def mixedOptions : Options :=
  { forwards := [" Mail.Example =127.0.0.1:993", "mail.example.=127.0.0.1:994",
      "Mail.Example.\t=127.0.0.1:995", "news.example =127.0.0.1:119"]
    privateMode := true
    publicHosts := ["app.example ", "Mail.Example."] }

theorem mixedOptions_decided : ∃ s, Settings.ofOptions mixedOptions = .ok s ∧
    s.policy.decide .tunnel (helloFor "mail.example") = .forward "127.0.0.1:994" ∧
    s.policy.decide .direct (helloFor "news.example") = .pass ∧
    s.policy.decide .tunnel (helloFor "app.example") = .reject := by
  obtain ⟨s, hs⟩ : ∃ s, Settings.ofOptions mixedOptions = .ok s := ⟨_, rfl⟩
  have hdecided := (spaced_hosts_do_not_count hs).1
  refine ⟨s, hs, ?_, ?_, ?_⟩
  · rw [hdecided _ (by rintro _ ⟨⟩; decide +kernel)]
    decide +kernel
  · rw [hdecided _ (by rintro _ ⟨⟩; decide +kernel)]
    decide +kernel
  · rw [hdecided _ (by rintro _ ⟨⟩; decide +kernel)]
    decide +kernel

/-- Whether the gateway decides by the hosts as they are written. -/
def DecidesAsWritten (o : Options) : Prop :=
  ∀ s, Settings.ofOptions o = .ok s → ∀ provenance hello,
    s.policy.decide provenance hello = (asWritten o).decide provenance hello

/-- A forward and a public host with a blank before them do not count, and a forward for no host is
accepted. -/
theorem spaced_host_not_as_written :
    ¬DecidesAsWritten { forwards := [" Mail.Example=127.0.0.1:993"] } ∧
      ¬DecidesAsWritten { privateMode := true, publicHosts := [" App.Example"] } ∧
      forwardsOf [".=127.0.0.1:993"] = .ok [("", "127.0.0.1:993")] := by
  refine ⟨fun h => ?_, fun h => ?_, rfl⟩
  · exact absurd (h _ rfl .direct (helloFor "mail.example")) (by decide +kernel)
  · exact absurd (h _ rfl .tunnel (helloFor "app.example")) (by decide +kernel)

end Launch

end Gatehouse
