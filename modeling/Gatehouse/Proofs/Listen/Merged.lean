import Gatehouse.Proofs.Listen.Merging
import Gatehouse.Proofs.Listen.Sources
import Gatehouse.Proofs.Listen.Wrapping
import Mathlib.Data.List.Basic

/-!
# From the sources to the accepts

The gateway accepts from a multiplexer over a source of its own and a reconnecting listener, each
with its stamp.  On the way a connection is in one of five places after the other: with the task
that owns the session, in the buffer of the reconnecting listener, with a relay task, in the channel
of the multiplexer, and with the one who accepted it.  None is lost between two of them.

    Merged                    : the listener that the gateway accepts from
    Holder, Merged.holders    : who has which connection on the way
    Merged.nothing_lost       : what was yielded has been delivered, in order, or is held by one
-/

namespace Gatehouse.Listen

variable {κ : Type}

/-- A source of its own or a reconnecting listener, with a stamp. -/
abbrev Stamped (κ : Type) := TaggedListener (Source κ ⊕ Reconnecting κ)

abbrev Merged (κ : Type) := Mux (Stamped κ) (Tagged κ)

abbrev MergedAct (κ : Type) :=
  Act (Mux.Event (Source.Event κ ⊕ Reconnecting.Event κ) (Tagged κ)) (Tagged κ)

/-! ## Lemmas -/

theorem connection?_tag (p : Provenance) (rs : List (Accepted κ)) :
    (rs.map (tag p)).filterMap connection? = (rs.filterMap connection?).map (⟨·, p⟩) := by
  rw [List.filterMap_map, List.map_filterMap]
  congr 1
  funext r
  cases r <;> rfl

theorem error?_tag (p : Provenance) (rs : List (Accepted κ)) :
    (rs.map (tag p)).filterMap error? = rs.filterMap error? := by
  rw [List.filterMap_map]
  congr 1
  funext r
  cases r with
  | ok c => rfl
  | error e => cases e <;> rfl

namespace Mux

variable {σ ε : Type}

theorem closeCalled_not_mem_sideActs (p : Provenance) (acts : List (Act (Event ε κ) κ)) :
    .closeCalled ∉ sideActs p acts := by
  intro hmem
  obtain ⟨a, -, ha⟩ := List.mem_filterMap.mp hmem
  unfold sideAct? at ha
  split at ha
  · split at ha <;> cases ha
  · split at ha <;> cases ha
  · cases ha

theorem mem_delivered_sideActs {p : Provenance} {c : κ} {acts : List (Act (Event ε κ) κ)}
    (h : .event (.yielded p (.ok c)) ∈ acts) : c ∈ delivered (sideActs p acts) := by
  have hside : .accepted (.ok c) ∈ sideActs p acts :=
    List.mem_filterMap.mpr ⟨_, h, if_pos rfl⟩
  have hresult : .ok c ∈ results (sideActs p acts) := List.mem_filterMap.mpr ⟨_, hside, rfl⟩
  exact List.mem_filterMap.mpr ⟨_, hresult, rfl⟩

theorem mem_failures_sideActs {p : Provenance} {e : ListenerError}
    {acts : List (Act (Event ε κ) κ)} (h : .event (.yielded p (.error e)) ∈ acts)
    (he : e ≠ .closed) : e ∈ failures (sideActs p acts) := by
  have hside : .accepted (.error e) ∈ sideActs p acts :=
    List.mem_filterMap.mpr ⟨_, h, if_pos rfl⟩
  have hresult : .error e ∈ results (sideActs p acts) := List.mem_filterMap.mpr ⟨_, hside, rfl⟩
  refine List.mem_filterMap.mpr ⟨_, hresult, ?_⟩
  cases e <;> first | rfl | contradiction

/-- By their stamps the connections that relay tasks get are told apart by sides. -/
theorem filter_yielded (acts : List (Act (Event ε (Tagged κ)) (Tagged κ)))
    (hstamp : ∀ p, ∀ c ∈ delivered (sideActs p acts), c.provenance = p) (p : Provenance) :
    ((acts.filterMap yielded?).filterMap connection?).filter (fun c => c.provenance = p) =
      delivered (sideActs p acts) := by
  rw [delivered, results, sideActs, List.filterMap_filterMap, List.filterMap_filterMap,
    List.filterMap_filterMap, List.filter_filterMap]
  refine List.filterMap_congr ?_
  intro a ha
  cases a with
  | event e =>
    cases e with
    | ofSource q e => by_cases hq : q = p <;> simp [yielded?, sideAct?, Act.result?, hq]
    | yielded q r =>
      cases r with
      | error e => by_cases hq : q = p <;> simp [yielded?, sideAct?, Act.result?, connection?, hq]
      | ok c =>
        have hc : c.provenance = q := hstamp q c (mem_delivered_sideActs ha)
        by_cases hq : q = p <;> simp [yielded?, sideAct?, Act.result?, connection?, hc, hq]
    | _ => rfl
  | _ => rfl

/-- If one side brings no errors, those that relay tasks get are of the other. -/
theorem errors_yielded (acts : List (Act (Event ε κ) κ))
    (hnone : failures (sideActs .tunnel acts) = []) :
    (acts.filterMap yielded?).filterMap error? = failures (sideActs .direct acts) := by
  rw [failures, results, sideActs, List.filterMap_filterMap, List.filterMap_filterMap,
    List.filterMap_filterMap]
  refine List.filterMap_congr ?_
  intro a ha
  cases a with
  | event e =>
    cases e with
    | ofSource q e => cases q <;> rfl
    | yielded q r =>
      cases q with
      | direct => rfl
      | tunnel =>
        cases r with
        | ok c => rfl
        | error e =>
          by_cases he : e = .closed
          · subst he
            rfl
          · have hmem := mem_failures_sideActs ha he
            rw [hnone] at hmem
            cases hmem
    | _ => rfl
  | _ => rfl

end Mux

namespace Merged

/-! ## The sources behind -/

/-- The way in which the source of the gateway is put behind its stamp. -/
def aroundSource : Wrapper (Stamped κ) (Source κ) := (Wrapper.tagged .direct).comp .inl

/-- The way in which the reconnecting listener is put behind its stamp. -/
def aroundTunnel : Wrapper (Stamped κ) (Reconnecting κ) := (Wrapper.tagged .tunnel).comp .inr

def sourceActs (acts : List (MergedAct κ)) : List (Act (Source.Event κ) κ) :=
  aroundSource.innerActs (Mux.sideActs .direct acts)

def tunnelActs (acts : List (MergedAct κ)) : List (Act (Reconnecting.Event κ) κ) :=
  aroundTunnel.innerActs (Mux.sideActs .tunnel acts)

/-! ## Who holds what -/

/-- Who can have a connection, or an error, on its way. -/
inductive Holder where
  /-- The task that owns the session. -/
  | task
  /-- The buffer of the reconnecting listener. -/
  | buffer
  /-- The relay task of a side. -/
  | relay (p : Provenance)
  | channel
  | errorChannel
deriving DecidableEq

/-- Who holds the values that go through a channel. -/
def channelHolders {α : Type} (h : Holder) (c : Channel Provenance α) : List (Holder × α) :=
  (c.buffer.map (h, ·)).toList ++ c.waiting.map fun w => (.relay w.1, w.2)

/-- Who holds the connections that the sessions have yielded. -/
def tunnelHolders (r : Reconnecting κ) : List (Holder × κ) :=
  (r.buffer.map (.buffer, ·)).toList ++ (r.inTask?.map (.task, ·)).toList

def tunnel? (s : Merged κ) : Option (Reconnecting κ) :=
  match s.tunnel with
  | some ⟨⟨.inr r, _⟩, _⟩ => some r
  | _ => none

/-- Who holds which connections on their way to an accept, those that come first before those that
come later. -/
def holders (s : Merged κ) : List (Holder × Tagged κ) :=
  channelHolders .channel s.connections ++
    (s.tunnel?.toList.flatMap tunnelHolders).map fun h => (h.1, ⟨h.2, .tunnel⟩)

/-- Who holds which errors. -/
def errorHolders (s : Merged κ) : List (Holder × ListenerError) :=
  channelHolders .errorChannel s.errors

/-- The connections of a provenance that are on their way. -/
def held (s : Merged κ) (p : Provenance) : List (Tagged κ) :=
  (s.holders.map (·.2)).filter fun c => c.provenance = p

theorem map_snd_channelHolders {α : Type} (h : Holder) (c : Channel Provenance α) :
    (channelHolders h c).map (·.2) = c.toList := by
  unfold channelHolders Channel.toList
  cases c.buffer <;> simp

theorem map_snd_tunnelHolders (r : Reconnecting κ) : (tunnelHolders r).map (·.2) = r.held := by
  unfold tunnelHolders Reconnecting.held
  cases r.buffer <;> cases r.inTask? <;> simp

theorem map_fst_channelHolders {α : Type} (h : Holder) (c : Channel Provenance α) :
    (channelHolders h c).map (·.1) =
      (c.buffer.map fun _ => h).toList ++ (c.waiting.map (·.1)).map .relay := by
  unfold channelHolders
  cases c.buffer <;> simp

theorem map_fst_tunnelHolders (r : Reconnecting κ) :
    (tunnelHolders r).map (·.1) =
      (r.buffer.map fun _ => .buffer).toList ++ (r.inTask?.map fun _ => .task).toList := by
  unfold tunnelHolders
  cases r.buffer <;> cases r.inTask? <;> simp

/-- The places that there are besides relay tasks. -/
def fixedPlaces : List Holder := [.channel, .buffer, .task, .errorChannel]

/-- No place holds two things. -/
theorem nodup_holders {s : Merged κ} (h : s.Orderly) :
    (s.holders.map (·.1) ++ s.errorHolders.map (·.1)).Nodup := by
  obtain ⟨tunnel, htunnel, hplaces⟩ : ∃ tunnel : List Holder,
      tunnel.Sublist [.buffer, .task] ∧ s.holders.map (·.1) =
        (channelHolders .channel s.connections).map (·.1) ++ tunnel := by
    refine ⟨(s.tunnel?.toList.flatMap tunnelHolders).map (·.1), ?_, ?_⟩
    · cases s.tunnel? with
      | none => simp
      | some r =>
        simp only [Option.toList_some, List.flatMap_singleton, map_fst_tunnelHolders]
        cases r.buffer <;> cases r.inTask? <;> simp
    · rw [holders, List.map_append, List.map_map]
      rfl
  let fixed := (s.connections.buffer.map fun _ => Holder.channel).toList ++ tunnel ++
    (s.errors.buffer.map fun _ => Holder.errorChannel).toList
  have hfixed : fixed.Sublist fixedPlaces := by
    show fixed.Sublist ([.channel] ++ [.buffer, .task] ++ [.errorChannel])
    refine (List.Sublist.append ?_ htunnel).append ?_
    · cases s.connections.buffer <;> simp
    · cases s.errors.buffer <;> simp
  have hrelays : (s.senders.map Holder.relay).Nodup :=
    List.pairwise_map.mpr (h.nodup.imp fun hne heq => hne (Holder.relay.inj heq))
  have hperm : (s.holders.map (·.1) ++ s.errorHolders.map (·.1)).Perm
      (fixed ++ s.senders.map .relay) := by
    rw [hplaces, errorHolders, map_fst_channelHolders, map_fst_channelHolders, Mux.senders]
    refine List.perm_iff_count.mpr ?_
    intro place
    simp only [fixed, List.map_append, List.count_append]
    omega
  rw [hperm.nodup_iff, List.nodup_append]
  refine ⟨hfixed.nodup (by decide), hrelays, ?_⟩
  intro place hplace _ hrelay
  obtain ⟨p, -, rfl⟩ := List.mem_map.mp hrelay
  have hmem := hfixed.subset hplace
  simp only [fixedPlaces, List.mem_cons, List.not_mem_nil, or_false] at hmem
  rcases hmem with rfl | rfl | rfl | rfl <;> exact Holder.noConfusion

/-- What is on its way is in the channel or still with the reconnecting listener. -/
theorem held_eq {s : Merged κ} {r : Reconnecting κ} (h : s.tunnel? = some r) (p : Provenance) :
    s.held p = s.connections.toList.filter (fun c => c.provenance = p) ++
      if p = .tunnel then r.held.map (⟨·, .tunnel⟩) else [] := by
  have hsnd : s.holders.map (·.2) = s.connections.toList ++ r.held.map (⟨·, .tunnel⟩) := by
    rw [holders, List.map_append, map_snd_channelHolders, h, ← map_snd_tunnelHolders]
    simp [Function.comp_def]
  rw [held, hsnd, List.filter_append]
  cases p <;> simp

section

variable [DecidableEq κ]

/-- What is behind the stamp of a side runs as it would by itself, and all that comes out of the
side comes from there and has the stamp. -/
theorem side_runs {τ δ : Type} [Listener τ δ κ] (w : Wrapper (Stamped κ) τ) {p : Provenance}
    (hgive : w.give = tag p) {s t : Merged κ} {acts : List (MergedAct κ)} {u : τ} {relay : Relay}
    (hs : s.Open) (hside : s.side p = some ⟨w.wrap u, relay⟩) (hacts : .closeCalled ∉ acts)
    (h : run? s acts = some t) :
    ∃ (u' : τ) (relay' : Relay), t.side p = some ⟨w.wrap u', relay'⟩ ∧
      run? u (w.innerActs (Mux.sideActs p acts)) = some u' ∧
      delivered (Mux.sideActs p acts) =
        (delivered (w.innerActs (Mux.sideActs p acts))).map (⟨·, p⟩) ∧
      failures (Mux.sideActs p acts) = failures (w.innerActs (Mux.sideActs p acts)) := by
  obtain ⟨f, hf, hrun⟩ := Mux.source_runs hs hside hacts h
  obtain ⟨⟨u', hwrap, hu⟩, hresults⟩ := w.run hrun
  rw [hgive] at hresults
  refine ⟨u', f.relay, ?_, hu, ?_, ?_⟩
  · rw [hf, ← hwrap]
  · rw [delivered, hresults, connection?_tag, delivered]
  · rw [failures, hresults, error?_tag, failures]

/-- **Nothing is lost on the way.**  As long as nobody closes the listener, what the source and the
sessions have yielded has been delivered in this order, each thing once and with its stamp, or is
held, each thing in one place.  The reconnecting listener hands on no errors. -/
theorem nothing_lost {source : Source κ} {session : Session κ} {s t : Merged κ}
    {acts : List (MergedAct κ)}
    (hs : Mux.ofSources (some ⟨.inl source, .direct⟩)
      (some ⟨.inr (Reconnecting.start session), .tunnel⟩) = .ok s)
    (hsource : source.closed = false) (hacts : .closeCalled ∉ acts) (h : run? s acts = some t) :
    (∃ source' : Source κ, run? source (sourceActs acts) = some source' ∧
      source.incoming ++ (sourceActs acts).filterMap Source.arrival? =
        results (sourceActs acts) ++ source'.incoming) ∧
    (∃ r : Reconnecting κ, run? (Reconnecting.start session) (tunnelActs acts) = some r ∧
      t.tunnel? = some r) ∧
    (delivered (sourceActs acts)).map (⟨·, .direct⟩) =
      (delivered acts).filter (fun c => c.provenance = .direct) ++ t.held .direct ∧
    (Reconnecting.sessionYields (.start session) (tunnelActs acts)).flatten.map (⟨·, .tunnel⟩) =
      (delivered acts).filter (fun c => c.provenance = .tunnel) ++ t.held .tunnel ∧
    failures (sourceActs acts) = failures acts ++ t.errorHolders.map (·.2) ∧
    failures (tunnelActs acts) = [] ∧
    (t.holders.map (·.1) ++ t.errorHolders.map (·.1)).Nodup := by
  have hopen := Mux.open_of_ofSources hs
  have hstart := Mux.eq_of_ofSources hs
  have hdirectStart : s.side .direct = some ⟨aroundSource.wrap source, .accepting⟩ := by
    rw [hstart]
    rfl
  have htunnelStart :
      s.side .tunnel = some ⟨aroundTunnel.wrap (Reconnecting.start session), .accepting⟩ := by
    rw [hstart]
    rfl
  obtain ⟨source', _, -, hsource', hdirectSide, hdirectErrors⟩ :=
    side_runs aroundSource rfl hopen hdirectStart hacts h
  obtain ⟨r, _, htunnel, hr, htunnelSide, htunnelErrors⟩ :=
    side_runs aroundTunnel rfl hopen htunnelStart hacts h
  have ht : t.tunnel? = some r := by
    rw [tunnel?, show t.tunnel = _ from htunnel]
    rfl
  have hsourceActs : .closeCalled ∉ sourceActs acts := fun hmem =>
    Mux.closeCalled_not_mem_sideActs .direct acts (aroundSource.closeCalled_of_innerActs hmem)
  have htunnelActs : .closeCalled ∉ tunnelActs acts := fun hmem =>
    Mux.closeCalled_not_mem_sideActs .tunnel acts (aroundTunnel.closeCalled_of_innerActs hmem)
  have hnone : failures (tunnelActs acts) = [] := Reconnecting.failures_eq_nil rfl htunnelActs hr
  -- Each side brings connections with its own stamp only.
  have hstamp : ∀ p, ∀ c ∈ delivered (Mux.sideActs p acts), c.provenance = p := by
    intro p c hc
    cases p with
    | direct =>
      rw [hdirectSide] at hc
      obtain ⟨_, -, rfl⟩ := List.mem_map.mp hc
      rfl
    | tunnel =>
      rw [htunnelSide] at hc
      obtain ⟨_, -, rfl⟩ := List.mem_map.mp hc
      rfl
  have hside : ∀ p, delivered (Mux.sideActs p acts) =
      (delivered acts).filter (fun c => c.provenance = p) ++
        t.connections.toList.filter (fun c => c.provenance = p) := by
    intro p
    have hconserved := Mux.connections_conserved hopen hacts h
    rw [hstart] at hconserved
    rw [← Mux.filter_yielded acts hstamp p, ← List.filter_append, ← hconserved]
    rfl
  have horderly : t.Orderly :=
    Mux.orderly_of_run (Mux.orderly_of_ofSources hs) h
  refine ⟨⟨source', hsource', Source.incoming_conserved hsource hsourceActs hsource'⟩,
    ⟨r, hr, ht⟩, ?_, ?_, ?_, hnone, nodup_holders horderly⟩
  · rw [sourceActs, ← hdirectSide, hside, held_eq ht]
    simp
  · have hconserved := Reconnecting.yields_conserved rfl htunnelActs hr
    have hempty : (Reconnecting.start session).held = [] := rfl
    rw [hempty, List.nil_append] at hconserved
    rw [hconserved, List.map_append, tunnelActs, ← htunnelSide, hside, held_eq ht]
    simp
  · have hconserved := Mux.errors_conserved hopen hacts h
    rw [Mux.errors_yielded acts (htunnelErrors.trans hnone), hdirectErrors, hstart] at hconserved
    rw [errorHolders, map_snd_channelHolders, ← hconserved]
    rfl

def oneVisitor : Source Nat := { address := .empty, incoming := [.ok 1] }

/-- A session that fails after one connection. -/
def shortSession : Session Nat := ⟨.empty, [.ok 10, .error (.relay "gone")]⟩

/-- The session fails while the relay task waits with its last connection, another one is dialed,
and an accept is given up before one returns. -/
def busyDay : List (MergedAct Nat) :=
  [.event (.yielded .direct (.ok ⟨1, .direct⟩)), .event .admitted,
    .event (.ofSource .tunnel (.inr .yielded)), .event (.ofSource .tunnel (.inr .delivered)),
    .event (.yielded .tunnel (.ok ⟨10, .tunnel⟩)), .event (.ofSource .tunnel (.inr .yielded)),
    .abandoned, .accepted (.ok ⟨1, .direct⟩), .event (.ofSource .tunnel (.inr .rested)),
    .event (.ofSource .tunnel (.inr (.dialed ⟨.empty, [.ok 11]⟩))),
    .event (.ofSource .tunnel (.inr .yielded)),
    .event (.ofSource .direct (.inl (.arrived (.error (.io "reset"))))),
    .event (.yielded .direct (.error (.io "reset")))]

def morning : Merged Nat where
  direct := some { source := ⟨.inl oneVisitor, .direct⟩ }
  tunnel := some { source := ⟨.inr (Reconnecting.start shortSession), .tunnel⟩ }

theorem busyDay_loses_nothing : ∃ t : Merged Nat,
    Mux.ofSources (some ⟨.inl oneVisitor, .direct⟩)
      (some ⟨.inr (Reconnecting.start shortSession), .tunnel⟩) = .ok morning ∧
    oneVisitor.closed = false ∧ .closeCalled ∉ busyDay ∧ run? morning busyDay = some t ∧
    t.holders = [(.relay .tunnel, ⟨10, .tunnel⟩), (.task, ⟨11, .tunnel⟩)] ∧
    (Reconnecting.sessionYields (.start shortSession) (tunnelActs busyDay)).flatten.map
        (⟨·, .tunnel⟩) =
      (delivered busyDay).filter (fun c => c.provenance = .tunnel) ++ t.held .tunnel := by
  have hacts : .closeCalled ∉ busyDay := by simp [busyDay]
  have hend : (run? morning busyDay).map holders =
      some [(.relay .tunnel, ⟨10, .tunnel⟩), (.task, ⟨11, .tunnel⟩)] := by rfl
  obtain ⟨t, ht, hholders⟩ := Option.map_eq_some_iff.mp hend
  have hstart : Mux.ofSources (some ⟨.inl oneVisitor, .direct⟩)
      (some ⟨.inr (Reconnecting.start shortSession), .tunnel⟩) = .ok morning := rfl
  obtain ⟨-, -, -, htunnel, -⟩ := nothing_lost hstart rfl hacts ht
  exact ⟨t, hstart, rfl, hacts, ht, hholders, htunnel⟩

end

end Merged

end Gatehouse.Listen
