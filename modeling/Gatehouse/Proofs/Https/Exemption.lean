import Gatehouse.Https.Connection
import Gatehouse.Proofs.Inspect.Fates
import Gatehouse.Proofs.Tls.Agreeing

/-!
# What private mode lets through for challenges

Private mode lets a connection from the tunnel through for a public server name; without one, only
a challenge gets through.  The server does not ask the inspector for what it has seen: it reads the
hello again.  As it reads the same hello, it sees the challenge too, answers it or not, and handles
no requests.

    AsksNothingPublic      : a connection from the tunnel that does not name a public host
    ChallengeAtMost        : no server does more with a stream than answer a challenge
    challengeAtMost_of_peek : so it is with a stream that was peeked at and begins with a challenge
    exempt_gets_no_requests : what comes of the connections that ask for nothing public
-/

namespace Gatehouse.Https

open Certificate Inspect Listen

variable {ρ : Type}

/-- The connection comes from the tunnel, and its hello, if it has one, names no public host. -/
def AsksNothingPublic (policy : Policy) (peek : ρ → Tls.Peeked ρ)
    (c : Tagged (Connection ρ)) : Prop :=
  c.provenance = .tunnel ∧ ∀ hello stream name, peek c.connection.stream = .hello hello stream →
    hello.serverName = some name → Host.canonical name ∉ policy.publicHosts

/-- The hello of the connection is that of a challenge. -/
def IsChallenge (peek : ρ → Tls.Peeked ρ) (c : Tagged (Connection ρ)) : Prop :=
  ∃ hello stream, peek c.connection.stream = .hello hello stream ∧ hello.isAcmeChallenge = true

/-- Whatever a server knows, it does not get a hello from the stream, turns it away or answers a
challenge; and whatever is sent then, it handles no requests. -/
def ChallengeAtMost {σ : Type} (read : ReadFrom ρ) (a : Tls.Acceptor σ) (stream : ρ) : Prop :=
  ∀ s : Server, s.receiveStream read a stream ∈ [none, some .refused, some .challenge] ∧
    ∀ atHand asked, s.handled atHand read a stream asked = []

/-- A server that reads a challenge does no more than answer it. -/
theorem challengeAtMost_of_receive {σ : Type} {read : ReadFrom ρ} {a : Tls.Acceptor σ} {stream : ρ}
    (h : ∀ hello rest, Tls.receive read a stream = .hello hello rest →
      hello.isAcmeChallenge = true) : ChallengeAtMost read a stream := by
  intro s
  unfold Server.receiveStream Server.handled
  cases hreceive : Tls.receive read a stream with
  | pending => simp
  | failed error => simp
  | hello hello rest =>
    have hchallenge := h hello rest hreceive
    refine ⟨?_, fun atHand asked => ?_⟩
    · cases hs : s.challenges <;> simp [Server.receive, hchallenge, hs]
    · have hclosed : s.opens atHand hello = false := by
        rw [← Bool.not_eq_true, Server.opens_iff, hchallenge]
        rintro ⟨hno, -⟩
        cases hno
      simp [hclosed]

/-- A server that reads a stream which was peeked at and begins with a challenge reads the
challenge. -/
theorem challengeAtMost_of_peek {σ : Type} {read : ReadFrom ρ} {a : Tls.Acceptor σ}
    (ha : a.Steady) {r : ρ} {hello : Tls.Hello} {p : Tls.PeekedStream ρ}
    (h : Tls.peek read a r = .hello hello p) (hchallenge : hello.isAcmeChallenge = true) :
    ChallengeAtMost (Tls.PeekedStream.read read) a p := by
  refine challengeAtMost_of_receive fun hello' rest hreceive => ?_
  rw [Tls.hello_of_receive ha h hreceive]
  exact hchallenge

/-- What private mode passes without a public name is a challenge. -/
theorem AsksNothingPublic.isChallenge {policy : Policy} {peek : ρ → Tls.Peeked ρ}
    {c : Tagged (Connection ρ)} (h : AsksNothingPublic policy peek c)
    (hprivate : policy.privateMode = true) {hello : Tls.Hello} {stream : Tls.PeekedStream ρ}
    (hhello : peek c.connection.stream = .hello hello stream)
    (hpass : policy.decide c.provenance hello = .pass) : hello.isAcmeChallenge = true := by
  obtain ⟨htunnel, hname⟩ := h
  rw [htunnel] at hpass
  have hadmits : policy.admits .tunnel hello = true := by simp [Policy.admits, hpass]
  rcases ((Policy.admits_tunnel_iff hprivate hello).mp hadmits).1 with ⟨name, hn, hm⟩ | hchallenge
  · exact absurd hm (hname hello stream name hhello hn)
  · exact hchallenge

section

variable {σ ε τ : Type} [Listener σ ε (Tagged (Connection ρ))] [DecidableEq ρ]

/-- **The exemption gives no access.**  In every run of an inspector in private mode, a connection
from the tunnel that asks for nothing public is passed on as a challenge only.  Each connection that
an accept returns is one of those that were taken; and if that one asks for nothing public then no
server that receives it does more than answer a challenge, whatever the connection sends, in
whatever portions.  Inspector and server may read hellos in any way in which a stream has no two of
them. -/
theorem exempt_gets_no_requests {a : Tls.Acceptor τ} (ha : a.Steady) {inner : σ} {policy : Policy}
    {read : ReadFrom ρ} {t : Inspector σ ρ} {acts : List (Act (Inspector.Event ε ρ) (Passed ρ))}
    (h : run? ({ inner, policy, peek := Tls.peek read a } : Inspector σ ρ) acts = some t)
    (hprivate : policy.privateMode = true) :
    (∀ i c f, t.connection? i = some c → t.fate? i = some f →
      AsksNothingPublic policy (Tls.peek read a) c →
      f = .waiting ∨ f = .delivered → IsChallenge (Tls.peek read a) c) ∧
    ∀ p ∈ Listen.delivered acts, ∃ i c, t.connection? i = some c ∧
      Passes policy (Tls.peek read a) c p ∧
      (AsksNothingPublic policy (Tls.peek read a) c →
        ChallengeAtMost (Tls.PeekedStream.read read) a p.connection.stream) := by
  obtain ⟨hpolicy, hpeek, -, js, htidy⟩ := Inspector.tidy_of_run h
  refine ⟨?_, ?_⟩
  · intro i c f hc hf hasks hpassed
    have hdecision : f.decision? = some (.ok .pass) := by
      rcases hpassed with rfl | rfl <;> rfl
    have hown := htidy.decided i c f _ hc hf hdecision
    rw [hpolicy, hpeek] at hown
    unfold ownDecision at hown
    split at hown
    · cases hown
    · cases hown
    · next hello stream hhello =>
      have hpass := Except.ok.inj (Option.some.inj hown)
      exact ⟨hello, stream, hhello, hasks.isChallenge hprivate hhello hpass⟩
  · intro p hp
    obtain ⟨i, c, hc, hpasses⟩ := htidy.exists_handsOn hp
    rw [hpolicy, hpeek] at hpasses
    refine ⟨i, c, hc, hpasses, fun hasks => ?_⟩
    obtain ⟨hello, hpass, hhello, -⟩ := hpasses
    have hchallenge := hasks.isChallenge hprivate hhello hpass
    exact challengeAtMost_of_peek ha hhello hchallenge

end

/-! ## A challenge from the tunnel -/

/-- The extensions of a hello that names `c.example` and speaks the protocol of challenges. -/
def challengeExtensions : Octets :=
  [0, 0, 0, 14, 0, 12, 0, 0, 9] ++ Octets.ofText "c.example" ++
    [0, 13, 0, 4, 0, 2, 4, 3] ++ [0, 16, 0, 13, 0, 11, 10] ++ Tls.acmeProtocol

def challengeHello : Octets :=
  [22, 3, 1, 0, 90, 1, 0, 0, 86, 3, 3] ++ List.replicate 32 0 ++ [0, 0, 2, 19, 1, 1, 0, 0, 43] ++
    challengeExtensions

/-- A challenge comes through the tunnel, in two pieces, and something else after it. -/
def challenger : Inspector.Visitor :=
  Inspector.visitor 1 [.data (challengeHello.take 50), .data (challengeHello.drop 50 ++ [71])]

def allPrivate : Inspector (Source Inspector.Visitor) ScriptedStream where
  inner := { address := .empty, incoming := [.ok challenger] }
  policy := { privateMode := true }
  peek := Tls.peek ScriptedStream.read Tls.helloAcceptor

def passedChallenge : Passed ScriptedStream :=
  ⟨⟨challenger.connection.peer, ⟨challengeHello ++ [71], ⟨[], true, []⟩⟩⟩, .tunnel⟩

/-- It is taken, peeked at, and returned by an accept. -/
def challengeRun :
    List (Act (Inspector.Event (Source.Event Inspector.Visitor) ScriptedStream)
      (Passed ScriptedStream)) :=
  [.event (.yielded (.ok challenger)), .event (.peeked 0), .event .admitted,
    .accepted (.ok passedChallenge)]

theorem challenger_gets_no_requests : Tls.helloAcceptor.Steady ∧
    ∃ t, run? allPrivate challengeRun = some t ∧ allPrivate.policy.privateMode = true ∧
    ChallengeAtMost (Tls.PeekedStream.read ScriptedStream.read) Tls.helloAcceptor
      passedChallenge.connection.stream ∧
    (⟨.empty, ⟨.empty, 0⟩, true⟩ : Server).receiveStream (Tls.PeekedStream.read ScriptedStream.read)
      Tls.helloAcceptor passedChallenge.connection.stream = some .challenge := by
  have hrun : (run? allPrivate challengeRun).isSome = true := by decide +kernel
  obtain ⟨t, ht⟩ := Option.isSome_iff_exists.mp hrun
  obtain ⟨-, hdelivered⟩ := exempt_gets_no_requests Tls.steady_helloAcceptor ht rfl
  obtain ⟨i, c, -, ⟨hello, hpass, hhello, -, htunnel⟩, hatMost⟩ :=
    hdelivered passedChallenge (List.mem_singleton_self _)
  refine ⟨Tls.steady_helloAcceptor, t, ht, rfl, hatMost ⟨htunnel.symm, ?_⟩, by decide +kernel⟩
  intro hello' stream name _ _ hpublic
  cases hpublic

end Gatehouse.Https
