import Gatehouse.Relay.Dialing

/-!
# Sessions only with the pinned relay

A dial goes through gates, one after the other: an endpoint accepts, the host key has the pinned
fingerprint, the relay takes the key of the gateway, and it grants the forwarding.  The host key is
checked within the handshake, which belongs to the server; of it is only assumed that it fails if
the check does.  So there is a session exactly with a relay that has passed them all, and one with
another host key is never shown who dials.

    PublicKey.IsPinnedBy : a fingerprint stands for a key
    TriedInTurn          : endpoints are tried in their order, up to the first that accepts
    connect_spec         : which endpoints are tried, and whether one is reached
    establish_eq_ok_iff  : what a relay that has been reached has to answer
    dial_spec            : what a dial has done, and what comes of it
    connects_or_checks   : what is done with a relay that is not trusted
    session_only_with_pinned_relay : when there is a session, and what has been done for it
-/

namespace Gatehouse.Relay

/-! ## Specification -/

/-- The pin is the fingerprint of the key, up to white space around the pin; the name of the hash
may be left out of it. -/
def PublicKey.IsPinnedBy (k : PublicKey) (pin : String) : Prop :=
  Text.trim pin = k.fingerprint ∨ PublicKey.fingerprintMark ++ Text.trim pin = k.fingerprint

/-- The pin, if there is one, is that of the key. -/
def Dialer.Expects (d : Dialer) (k : PublicKey) : Prop := ∀ pin, d.pin = some pin → k.IsPinnedBy pin

/-- A handshake fails if the check of the host key does. -/
def Server.Heeds (s : Server) : Prop := ∀ e, ∃ e', s.handshake (.error e) = .error e'

/-- What there is to a session with a relay that tells this port. -/
structure Server.Serves (s : Server) (d : Dialer) (lookup : Lookup) (port : Nat) : Prop where
  reached : ∃ es, d.endpoints lookup = .ok es ∧ ∃ e ∈ es, s.accepts e = true
  pinned : d.Expects s.hostKey
  greeted : s.handshake (.ok true) = .ok ()
  authenticated : s.authenticationFault = none ∧ s.authenticates d.user d.key = true
  granted : s.forwardingFault = none ∧ s.forwards d.bindHost d.bindPort = some port

/-- The endpoints to which a connection was tried. -/
def tried (steps : List DialStep) : List Net.SocketAddress :=
  steps.filterMap fun
    | .connect e => some e
    | _ => none

/-- Endpoints are tried in their order, none after one that accepts, and all if none does. -/
structure TriedInTurn (s : Server) (endpoints tried : List Net.SocketAddress) : Prop where
  inOrder : tried <+: endpoints
  noneAfter : ∀ before e after, tried = before ++ e :: after → s.accepts e = true → after = []
  untilReached : (∀ e ∈ tried, s.accepts e = false) → tried = endpoints

/-! ## The host key -/

theorem PublicKey.matchesPin_iff (k : PublicKey) (pin : String) :
    k.matchesPin pin = true ↔ k.IsPinnedBy pin := by
  have hmark : PublicKey.fingerprintMark ++ Text.trim pin = k.fingerprint ↔
      Text.trim pin = k.shortFingerprint := by
    rw [PublicKey.fingerprint, ← String.toList_inj, String.toList_append, String.toList_append,
      List.append_cancel_left_eq, String.toList_inj]
  rw [PublicKey.IsPinnedBy, hmark, PublicKey.matchesPin, Bool.or_eq_true, beq_iff_eq, beq_iff_eq]

variable {d : Dialer} {s : Server} {lookup : Lookup}

theorem trusts_iff (k : PublicKey) : d.trusts k = true ↔ d.Expects k := by
  unfold Dialer.trusts Dialer.Expects
  cases d.pin with
  | none => simp
  | some pin => simp [k.matchesPin_iff]

theorem checkHostKey_of_expects {k : PublicKey} (h : d.Expects k) :
    d.checkHostKey k = .ok true := if_pos ((trusts_iff k).2 h)

theorem checkHostKey_of_not_expects {k : PublicKey} (h : ¬ d.Expects k) :
    d.checkHostKey k = .error (.wrongHostKey k.fingerprint) := if_neg (mt (trusts_iff k).1 h)

/-! ## The endpoints -/

theorem TriedInTurn.nil : TriedInTurn s [] [] :=
  ⟨List.prefix_rfl, fun before e after h _ => by simp at h, fun _ => rfl⟩

theorem TriedInTurn.reached {e : Net.SocketAddress} (he : s.accepts e = true)
    (es : List Net.SocketAddress) : TriedInTurn s (e :: es) [e] := by
  refine ⟨⟨es, rfl⟩, ?_, fun h => ?_⟩
  · intro before e' after h _
    have hlength := congrArg List.length h
    simp only [List.length_append, List.length_cons, List.length_nil] at hlength
    exact List.eq_nil_of_length_eq_zero (by omega)
  · rw [h e (List.mem_singleton_self e)] at he
    cases he

theorem TriedInTurn.missed {e : Net.SocketAddress} {es tried : List Net.SocketAddress}
    (he : s.accepts e = false) (h : TriedInTurn s es tried) :
    TriedInTurn s (e :: es) (e :: tried) := by
  refine ⟨(List.prefix_cons_inj e).2 h.inOrder, ?_, fun hall => ?_⟩
  · rintro (_ | ⟨b, before⟩) e' after hsplit haccepts
    · cases hsplit
      rw [he] at haccepts
      cases haccepts
    · cases hsplit
      exact h.noneAfter before e' after rfl haccepts
  · rw [h.untilReached fun e' he' => hall e' (List.mem_cons_of_mem e he')]

/-- Which endpoints are tried, and whether one is reached. -/
theorem connect_spec (s : Server) (es : List Net.SocketAddress) :
    ∃ tried reached, Dialer.connect s es = (tried.map .connect, reached) ∧ TriedInTurn s es tried ∧
      (reached = true ↔ ∃ e ∈ es, s.accepts e = true) := by
  induction es with
  | nil => exact ⟨[], false, rfl, .nil, by simp⟩
  | cons e es ih =>
    cases he : s.accepts e with
    | true => exact ⟨[e], true, by simp [Dialer.connect, he], .reached he es, by simp [he]⟩
    | false =>
      obtain ⟨tried, reached, hconnect, hturn, hreached⟩ := ih
      refine ⟨e :: tried, reached, ?_, hturn.missed he, by simp [hreached, he]⟩
      simp [Dialer.connect, he, hconnect]

/-! ## With a relay that has been reached -/

theorem authenticate_eq_ok_iff :
    d.authenticate s = .ok () ↔
      s.authenticationFault = none ∧ s.authenticates d.user d.key = true := by
  unfold Dialer.authenticate
  cases s.authenticationFault with
  | some cause => simp
  | none =>
    cases s.authenticates d.user d.key <;> simp

theorem requestForwarding_eq_ok_iff {a : ListenerAddress} :
    d.requestForwarding s = .ok a ↔ ∃ port,
      (s.forwardingFault = none ∧ s.forwards d.bindHost d.bindPort = some port) ∧
        a = .remote d.bindHost (if port = 0 then d.bindPort else port) := by
  unfold Dialer.requestForwarding
  cases s.forwardingFault with
  | some cause => simp
  | none =>
    cases s.forwards d.bindHost d.bindPort <;> simp [eq_comm]

/-- The handshake lets only a relay with the expected host key pass. -/
theorem handshake_eq_ok_iff (hs : s.Heeds) :
    s.handshake (d.checkHostKey s.hostKey) = .ok () ↔
      d.Expects s.hostKey ∧ s.handshake (.ok true) = .ok () := by
  by_cases h : d.Expects s.hostKey
  · rw [checkHostKey_of_expects h]
    exact (and_iff_right h).symm
  · obtain ⟨e, he⟩ := hs (.wrongHostKey s.hostKey.fingerprint)
    rw [checkHostKey_of_not_expects h, he]
    exact ⟨nofun, fun hp => absurd hp.1 h⟩

/-- What a relay has to answer. -/
theorem establish_eq_ok_iff (hs : s.Heeds) {a : ListenerAddress} :
    (d.establish s).2 = .ok a ↔ (d.Expects s.hostKey ∧ s.handshake (.ok true) = .ok ()) ∧
      (s.authenticationFault = none ∧ s.authenticates d.user d.key = true) ∧
        d.requestForwarding s = .ok a := by
  rw [← handshake_eq_ok_iff hs, ← authenticate_eq_ok_iff]
  unfold Dialer.establish
  cases s.handshake (d.checkHostKey s.hostKey) with
  | error e => simp
  | ok _ => cases d.authenticate s <;> simp

/-- Each step is taken only after those before it. -/
theorem establish_steps (d : Dialer) (s : Server) :
    (d.establish s).1 <+: [.checkHostKey, .authenticate, .requestForwarding] := by
  unfold Dialer.establish
  cases s.handshake (d.checkHostKey s.hostKey) with
  | error e => exact ⟨[.authenticate, .requestForwarding], rfl⟩
  | ok _ =>
    cases d.authenticate s with
    | error e => exact ⟨[.requestForwarding], rfl⟩
    | ok _ => exact List.prefix_rfl

/-- With another host key nothing is done but to check it. -/
theorem establish_of_not_expects (hs : s.Heeds) (h : ¬ d.Expects s.hostKey) :
    ∃ e, s.handshake (.error (.wrongHostKey s.hostKey.fingerprint)) = .error e ∧
      d.establish s = ([.checkHostKey], .error e) := by
  obtain ⟨e, he⟩ := hs (.wrongHostKey s.hostKey.fingerprint)
  refine ⟨e, he, ?_⟩
  unfold Dialer.establish
  rw [checkHostKey_of_not_expects h, he]

/-! ## The dial -/

theorem tried_connects (es : List Net.SocketAddress) (more : List DialStep)
    (hmore : tried more = []) : tried (es.map .connect ++ more) = es := by
  unfold tried at *
  rw [List.filterMap_append, hmore, List.append_nil, List.filterMap_map]
  exact List.filterMap_some

/-- No connection is tried after an endpoint has been reached. -/
theorem tried_establish (d : Dialer) (s : Server) : tried (d.establish s).1 = [] := by
  have h := (establish_steps d s).sublist.filterMap (fun | .connect e => some e | _ => none)
  exact List.sublist_nil.1 h

/-- What a dial does with endpoints, and what comes of it. -/
theorem dial_spec {es : List Net.SocketAddress} (hes : d.endpoints lookup = .ok es) :
    ∃ tried, TriedInTurn s es tried ∧
      (d.dial lookup s = (tried.map .connect, .error (.unreachable es)) ∧
          (∀ e ∈ es, s.accepts e = false) ∨
        d.dial lookup s = (tried.map .connect ++ (d.establish s).1, (d.establish s).2) ∧
          ∃ e ∈ es, s.accepts e = true) := by
  obtain ⟨tried, reached, hconnect, hturn, hreached⟩ := connect_spec s es
  refine ⟨tried, hturn, ?_⟩
  simp only [Dialer.dial, hes, hconnect]
  cases reached with
  | false =>
    refine .inl ⟨rfl, fun e he => ?_⟩
    rw [← Bool.not_eq_true]
    exact fun haccepts => nomatch hreached.2 ⟨e, he, haccepts⟩
  | true => exact .inr ⟨rfl, hreached.1 rfl⟩

theorem dial_of_error {e : RelayError} (he : d.endpoints lookup = .error e) :
    d.dial lookup s = ([], .error e) := by
  simp [Dialer.dial, he]

theorem dial_eq_ok_iff (hs : s.Heeds) {a : ListenerAddress} :
    (d.dial lookup s).2 = .ok a ↔ ∃ port, s.Serves d lookup port ∧
      a = .remote d.bindHost (if port = 0 then d.bindPort else port) := by
  constructor
  · intro h
    cases hes : d.endpoints lookup with
    | error e =>
      rw [dial_of_error hes] at h
      cases h
    | ok es =>
      obtain ⟨_, -, ⟨hdial, -⟩ | ⟨hdial, hreached⟩⟩ := dial_spec (s := s) hes <;> rw [hdial] at h
      · cases h
      · obtain ⟨⟨hpinned, hgreeted⟩, hauthenticated, hgranted⟩ := (establish_eq_ok_iff hs).1 h
        obtain ⟨port, hport, ha⟩ := requestForwarding_eq_ok_iff.1 hgranted
        exact ⟨port, ⟨⟨es, hes, hreached⟩, hpinned, hgreeted, hauthenticated, hport⟩, ha⟩
  · rintro ⟨port, ⟨⟨es, hes, e, he, haccepts⟩, hpinned, hgreeted, hauthenticated, hport⟩, ha⟩
    obtain ⟨_, -, ⟨-, hmissed⟩ | ⟨hdial, -⟩⟩ := dial_spec (s := s) hes
    · rw [hmissed e he] at haccepts
      cases haccepts
    · rw [hdial]
      exact (establish_eq_ok_iff hs).2 ⟨⟨hpinned, hgreeted⟩, hauthenticated,
        requestForwarding_eq_ok_iff.2 ⟨port, hport, ha⟩⟩

theorem tried_dial {es : List Net.SocketAddress} (hes : d.endpoints lookup = .ok es) :
    TriedInTurn s es (tried (d.dial lookup s).1) := by
  obtain ⟨_, hturn, ⟨hdial, -⟩ | ⟨hdial, -⟩⟩ := dial_spec (s := s) hes <;> rw [hdial]
  · have htried := tried_connects ‹_› [] rfl
    rw [List.append_nil] at htried
    rwa [htried]
  · rwa [tried_connects _ _ (tried_establish d s)]

/-- With another host key nothing is done but to connect and to check it. -/
theorem connects_or_checks (hs : s.Heeds) (h : ¬ d.Expects s.hostKey) {step : DialStep}
    (hstep : step ∈ (d.dial lookup s).1) : (∃ e, step = .connect e) ∨ step = .checkHostKey := by
  obtain ⟨_, -, hestablish⟩ := establish_of_not_expects hs h
  cases hes : d.endpoints lookup with
  | error e =>
    rw [dial_of_error hes] at hstep
    cases hstep
  | ok es =>
    obtain ⟨_, -, ⟨hdial, -⟩ | ⟨hdial, -⟩⟩ := dial_spec (s := s) hes <;> rw [hdial] at hstep
    · obtain ⟨e, -, rfl⟩ := List.mem_map.1 hstep
      exact .inl ⟨e, rfl⟩
    · rw [hestablish, List.mem_append, List.mem_singleton] at hstep
      refine hstep.imp_left fun hconnect => ?_
      obtain ⟨e, -, rfl⟩ := List.mem_map.1 hconnect
      exact ⟨e, rfl⟩

/-! ## For a listener -/

theorem dialForListener_eq_ok_iff {a : ListenerAddress} :
    d.dialForListener lookup s = .ok a ↔ (d.dial lookup s).2 = .ok a := by
  unfold Dialer.dialForListener
  cases (d.dial lookup s).2 with
  | ok a' =>
    constructor <;> rintro ⟨⟩ <;> rfl
  | error e => exact ⟨nofun, nofun⟩

theorem exists_of_dialForListener_error {e : ListenerError}
    (h : d.dialForListener lookup s = .error e) : ∃ text, e = .relay text := by
  unfold Dialer.dialForListener at h
  cases hdial : (d.dial lookup s).2 with
  | ok a =>
    rw [hdial] at h
    cases h
  | error e' =>
    rw [hdial] at h
    cases h
    exact ⟨e'.message, rfl⟩

/-- There is a session exactly with a relay that has been reached, has the pinned host key if one is
pinned, and takes and grants what it is asked for; its port is the one that was asked for unless the
relay tells another.  The endpoints are tried in turn, a relay with another host key is not shown
the key of the gateway, and whatever fails is an error of the relay. -/
theorem session_only_with_pinned_relay (d : Dialer) (lookup : Lookup) (s : Server)
    (hs : s.Heeds) :
    (∀ a, d.dialForListener lookup s = .ok a ↔ ∃ port, s.Serves d lookup port ∧
        a = .remote d.bindHost (if port = 0 then d.bindPort else port)) ∧
      (∀ es, d.endpoints lookup = .ok es → TriedInTurn s es (tried (d.dial lookup s).1)) ∧
      (¬ d.Expects s.hostKey → .authenticate ∉ (d.dial lookup s).1 ∧
        .requestForwarding ∉ (d.dial lookup s).1) ∧
      ∀ e, d.dialForListener lookup s = .error e → ∃ text, e = .relay text := by
  refine ⟨fun a => ?_, fun es hes => tried_dial hes, fun hnot => ?_,
    fun e => exists_of_dialForListener_error⟩
  · rw [dialForListener_eq_ok_iff, dial_eq_ok_iff hs]
  · have hfew : ∀ step ∈ (d.dial lookup s).1, (∃ e, step = .connect e) ∨ step = .checkHostKey :=
      fun _ => connects_or_checks hs hnot
    exact ⟨fun h => by simpa using hfew _ h, fun h => by simpa using hfew _ h⟩

def firstIp : Net.Ip := .v4 ⟨198, 51, 100, 4⟩

def secondIp : Net.Ip := .v4 ⟨198, 51, 100, 5⟩

/-- A relay at the second of two endpoints, which tells zero for the port that was asked for. -/
def secondRelay : Server where
  accepts e := e.ip == secondIp
  hostKey := ⟨PublicKey.sized PublicKey.ed25519Name ++ PublicKey.sized (List.replicate 32 7)⟩
  authenticates user _ := user == "appliance"
  forwards _ _ := some 0

/-- A dialer that knows both endpoints, with a pin. -/
def dialerWithPin (pin : String) : Dialer where
  host := "relay.example"
  addresses := [firstIp, secondIp]
  user := "appliance"
  key := ⟨[]⟩
  bindHost := "appliance.example"
  pin := some pin

/-- The key of the relay, with white space around its fingerprint. -/
def rightPin : String := " gNSIRW+2Iyiuvsdp/bgjy38bvWHw6wQm3tuoXrl3WjQ\n"

def wrongPin : String := "SHA256:9gBUEDuZNxMpIyyDmXMyQpJK6L4IpxbsrLTzURKjnUc"

theorem heeds_secondRelay : secondRelay.Heeds := fun e => ⟨e, rfl⟩

theorem fingerprint_secondRelay :
    secondRelay.hostKey.fingerprint = "SHA256:gNSIRW+2Iyiuvsdp/bgjy38bvWHw6wQm3tuoXrl3WjQ" := by
  decide +kernel

theorem expects_dialerWithPin_iff (pin : String) (k : PublicKey) :
    (dialerWithPin pin).Expects k ↔ k.IsPinnedBy pin :=
  ⟨fun h => h pin rfl, fun h _ hpin => Option.some.inj hpin ▸ h⟩

theorem expects_rightPin : (dialerWithPin rightPin).Expects secondRelay.hostKey := by
  rw [expects_dialerWithPin_iff, PublicKey.IsPinnedBy, fingerprint_secondRelay]
  exact .inr (by decide)

theorem not_expects_wrongPin : ¬ (dialerWithPin wrongPin).Expects secondRelay.hostKey := by
  rw [expects_dialerWithPin_iff, PublicKey.IsPinnedBy, fingerprint_secondRelay]
  decide

/-- Both endpoints are tried, and the session has the port that was asked for; with another pin the
relay is not shown the key of the gateway. -/
theorem secondRelay_dialed_by_pin :
    let nowhere : Lookup := fun _ => .error "no such host"
    secondRelay.Heeds ∧
      (dialerWithPin rightPin).dialForListener nowhere secondRelay =
        .ok (.remote "appliance.example" 443) ∧
      TriedInTurn secondRelay [{ ip := firstIp, port := 22 }, { ip := secondIp, port := 22 }]
        (tried ((dialerWithPin rightPin).dial nowhere secondRelay).1) ∧
      DialStep.authenticate ∉ ((dialerWithPin wrongPin).dial nowhere secondRelay).1 := by
  intro nowhere
  have hright :=
    session_only_with_pinned_relay (dialerWithPin rightPin) nowhere secondRelay heeds_secondRelay
  have hwrong :=
    session_only_with_pinned_relay (dialerWithPin wrongPin) nowhere secondRelay heeds_secondRelay
  refine ⟨heeds_secondRelay, (hright.1 _).2 ⟨0, ?_, rfl⟩, hright.2.1 _ rfl,
    (hwrong.2.2.1 not_expects_wrongPin).1⟩
  exact
    { reached := ⟨_, rfl, { ip := secondIp, port := 22 }, .tail _ (.head _), by decide⟩
      pinned := expects_rightPin
      greeted := rfl
      authenticated := ⟨rfl, by decide⟩
      granted := ⟨rfl, rfl⟩ }

end Gatehouse.Relay
