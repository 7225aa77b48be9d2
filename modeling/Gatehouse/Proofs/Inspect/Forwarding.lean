import Gatehouse.Inspect.Policy

/-!
# What reaches backends that speak TLS themselves

A connection is forwarded by its server name.  In private mode the tunnel gets to a backend in this
way by a public name; and as challenges are let through whatever they name, by a challenge, too.

    Policy.decide_eq_forward_iff : when a connection is forwarded
    Policy.tunnel_forward_iff    : when one from the tunnel is, in private mode
-/

namespace Gatehouse.Inspect

namespace Policy

variable {p : Policy}

/-- A connection is forwarded by its name, unless private mode turns it away before. -/
theorem decide_eq_forward_iff {provenance : Provenance} {hello : Tls.Hello} {address : String} :
    p.decide provenance hello = .forward address ↔
      ∃ name, hello.serverName = some name ∧
        p.forwardFor? (Host.canonical name) = some address ∧
        (p.privateMode = true → provenance = .tunnel →
          Host.canonical name ∈ p.publicHosts ∨ hello.isAcmeChallenge = true) := by
  unfold decide
  dsimp only
  cases hello.serverName with
  | none => split <;> simp
  | some name =>
    cases hforward : p.forwardFor? (Host.canonical name) with
    | none => split <;> simp [hforward]
    | some found =>
      by_cases hpublic : Host.canonical name ∈ p.publicHosts <;>
        by_cases hchallenge : hello.isAcmeChallenge = true <;>
          cases p.privateMode <;> cases provenance <;> simp [hforward, hpublic, hchallenge]

/-- **Private mode keeps the tunnel from private backends, but for challenges.**  A connection from
the tunnel is forwarded to the backend of its canonical server name; this name is public, or the
only protocol offered is that of challenges. -/
theorem tunnel_forward_iff (hp : p.privateMode = true) (hello : Tls.Hello) (address : String) :
    p.decide .tunnel hello = .forward address ↔
      ∃ name, hello.serverName = some name ∧
        p.forwardFor? (Host.canonical name) = some address ∧
        (Host.canonical name ∈ p.publicHosts ∨ hello.protocols = [Tls.acmeProtocol]) := by
  rw [decide_eq_forward_iff]
  refine exists_congr fun name => and_congr_right fun hname => and_congr_right fun _ => ?_
  rw [Tls.Hello.isAcmeChallenge_iff, hname, Option.isSome_some, and_iff_right rfl]
  exact ⟨fun h => h hp rfl, fun h _ _ => h⟩

/-- `raw.example` has a backend of its own and is not public. -/
def privateBackend : Policy :=
  { forwards := [("raw.example", "127.0.0.1:9000")], privateMode := true,
    publicHosts := ["app.example"] }

/-- The hello of a challenge for the name of this backend. -/
def challengeForBackend : Tls.Hello := ⟨some "raw.example", [Tls.acmeProtocol]⟩

theorem privateBackend_by_challenge :
    privateBackend.privateMode = true ∧
      privateBackend.decide .tunnel challengeForBackend = .forward "127.0.0.1:9000" :=
  ⟨rfl, (tunnel_forward_iff rfl challengeForBackend _).mpr
    ⟨"raw.example", rfl, by decide +kernel, .inr rfl⟩⟩

/-- The tunnel reaches a backend although the name is not public. -/
theorem privateBackend_not_public :
    ¬∀ (p : Policy) (hello : Tls.Hello) (address : String), p.privateMode = true →
      p.decide .tunnel hello = .forward address →
      ∃ name, hello.serverName = some name ∧ Host.canonical name ∈ p.publicHosts := by
  intro h
  have hforward :
      privateBackend.decide .tunnel challengeForBackend = .forward "127.0.0.1:9000" := by
    decide +kernel
  obtain ⟨name, hname, hpublic⟩ := h _ _ _ rfl hforward
  obtain rfl : "raw.example" = name := Option.some.inj hname
  exact absurd hpublic (by decide +kernel)

end Policy

end Gatehouse.Inspect
