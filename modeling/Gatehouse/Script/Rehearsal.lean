import Gatehouse.Health.Probe
import Gatehouse.Script.Scene
import Gatehouse.Script.Secured

/-!
# Trying out the whole gateway

A gateway is started in a scene.  Clients come one after the other, by plain HTTP, by HTTPS or
through the relay, while health checks go on; the clock moves only while a certificate is delayed
and while nothing is done.
-/

namespace Gatehouse.Script

open Http Launch

structure Checks where
  /-- The URL, if it can be probed. -/
  url : Option Health.ProbeUrl
  /-- In nanoseconds, as are all times of probes. -/
  interval : Nat
  next : Nat := 0
  checker : Health.Checker

structure Rehearsal where
  gateway : Gateway
  /-- Where plain HTTP is served, and where clients look for it. -/
  plain : Option Net.SocketAddress
  httpSocket : Net.SocketAddress
  /-- Where HTTPS is served, and where clients look for it. -/
  secure : Option Net.SocketAddress
  httpsSocket : Net.SocketAddress
  stage : SecuredStage
  /-- What answers the requests that the gateway sends on. -/
  backend : Client
  checks : Option Checks

def nearbyPeer : Net.SocketAddress := { ip := .v4 .loopback, port := 50000 }

namespace Rehearsal

def servePlain (r : Rehearsal) (request : Request) : Reply :=
  Http.servePlain r.gateway.options.localProxyAddress r.backend nearbyPeer request

/-- Notes requests that were sent on. -/
def note (r : Rehearsal) (sent : List Outbound) : Rehearsal :=
  { r with stage := { r.stage with outbound := r.stage.outbound ++ sent } }

/-! ## Health checks -/

/-- How the requests of probes are answered. -/
def fetch (r : Rehearsal) : Health.Fetch := Health.fetch r.plain r.servePlain r.backend

def nanos (r : Rehearsal) : Nat := r.stage.now * 1000000

/-- The next probe, if it is time for it. -/
def check (r : Rehearsal) : Rehearsal :=
  match r.checks with
  | some { url, interval, next, checker := .running failures } =>
    if r.nanos < next then r
    else
      let (outcome, sent) := match url with
        | some url => url.probe r.fetch Health.maxRedirects
        | none => (.failure, [])
      let checker := Health.Checker.step (.running failures) outcome
      { r with checks := some { url, interval, next := next + interval, checker } }.note sent
  | _ => r

/-- The most probes that are made at a time; more of them tell nothing new. -/
def maxProbes : Nat := 10000

/-- All probes whose time has come. -/
def settle (r : Rehearsal) : Rehearsal :=
  match r.checks with
  | some c => Nat.repeat check (min maxProbes ((r.nanos - c.next) / max c.interval 1 + 1)) r
  | none => r

/-- How many probes in a row have failed, if the gateway has ended for it. -/
def ended? (r : Rehearsal) : Option Nat :=
  match r.checks with
  | some { checker := .unhealthy failures, .. } => some failures
  | _ => none

/-! ## Clients -/

inductive Act where
  /-- Nothing, for some time. -/
  | wait (time : Nat)
  /-- A client sends a request by plain HTTP. -/
  | plain (request : Request) (payload : Octets)
  /-- A client connects by HTTPS, or through the relay. -/
  | secure (way : Provenance) (guest : Guest)

/-- What comes of it. -/
inductive Outcome where
  | waited
  /-- Nothing listens there. -/
  | refused
  /-- The gateway did not ask the relay for connections. -/
  | noTunnel
  | heard (heard : Heard)
  | shook (handshake : Handshake)

/-- A client shakes hands with the server of HTTPS. -/
def shakeHands (r : Rehearsal) (way : Provenance) (g : Guest) : Handshake × Rehearsal :=
  if r.gateway.settings.policy.admits way g.hello then
    let (handshake, _, stage) := r.stage.connect r.backend g
    (handshake, { r with stage })
  else (.failed, r)

/-- Whether there is a way to the server of HTTPS. -/
def isOpen (r : Rehearsal) : Provenance → Bool
  | .direct => r.secure.any (·.takes r.httpsSocket)
  | .tunnel => r.gateway.tunnel.isSome

/-- One thing is done, without the health checks. -/
def step (r : Rehearsal) : Act → Outcome × Rehearsal
  | .wait time => (.waited, { r with stage := r.stage.sleep time })
  | .plain request payload =>
    if r.plain.any (·.takes r.httpSocket) then
      (.heard (visit r.servePlain request payload), r.note (sentOn r.servePlain request).toList)
    else (.refused, r)
  | .secure way guest =>
    if r.isOpen way then
      let (handshake, r) := r.shakeHands way guest
      (.shook handshake, r)
    else (if way = .tunnel then .noTunnel else .refused, r)

/-- Things are done one after the other, as long as the gateway runs. -/
def perform (r : Rehearsal) : List Act → List Outcome × Rehearsal
  | [] => ([], r)
  | a :: as =>
    if r.ended?.isSome then ([], r)
    else
      let (outcome, r) := r.step a
      let (outcomes, r) := perform r.settle as
      (outcome :: outcomes, r)

/-- Nothing is done until the health checks have come to a decision, if they do at all. -/
def patient (r : Rehearsal) : Rehearsal :=
  match r.checks with
  | some c =>
    let time := (c.interval * Health.maxFailures + c.next) / 1000000 + 1
    { r with stage := r.stage.sleep time }.settle
  | none => r

/-! ## The start -/

/-- The health checks of a gateway, if there are any. -/
def checksOf (g : Gateway) : Option Checks := do
  let url ← healthUrl g.options g.settings.http
  let interval := g.options.healthCheckInterval
  let checker ← Health.Checker.start? interval
  return { url := Health.ProbeUrl.ofText? url, checker,
           interval := interval.seconds * 1000000000 + interval.nanos }

/-- The rehearsal of a gateway that has started in a scene.  No order of a certificate ever comes
to an end. -/
def ofGateway (scene : Scene) (backend : Client) (g : Gateway) : Rehearsal :=
  let o := g.options
  { gateway := g
    httpSocket := scene.httpSocket
    httpsSocket := scene.httpsSocket
    plain := if o.disableHttp || !scene.canBind g.settings.http then none
      else some (g.settings.http.boundAs scene.freePort)
    secure := if o.disableHttps || o.disableLocalListener then none
      else some (g.settings.https.boundAs scene.freePort)
    stage := { resolver := .start g.manual g.table.routes false, acmeTiming := ⟨"", 0, 0⟩,
               handshakeTimeout := o.clientHelloTimeout.toMillis }
    backend := backend
    checks := checksOf g }

end Rehearsal

/-- How a rehearsal ends. -/
inductive Finish where
  /-- The gateway is told to stop. -/
  | signal
  /-- The gateway is let run until it stops by itself. -/
  | wait
  | abort

/-- How a gateway has ended. -/
inductive Exit where
  | ok
  | aborted
  | failed (error : GatewayError)

/-- What came of a rehearsal. -/
structure Record where
  outcomes : List Rehearsal.Outcome := []
  exit : Exit
  outbound : List Outbound := []
  /-- What is left in the cache. -/
  cache : List String

/-- How a gateway ends after all was done. -/
def Rehearsal.finish (r : Rehearsal) (f : Finish) : Exit :=
  match r.ended?, f with
  | some failures, _ => .failed (.unhealthy failures)
  | none, .signal => .ok
  | none, _ => .aborted

/-- A gateway is started in a scene, and things are done with it. -/
def rehearse (o : Cli.Options) (scene : Scene) (backend : Client) (acts : List Rehearsal.Act)
    (f : Finish) : Record :=
  let (result, steps) := start o scene.surroundings
  let cache := scene.cacheAfter o steps
  match result with
  | .error e => { exit := .failed e, cache }
  | .ok g =>
    let (outcomes, r) := (Rehearsal.ofGateway scene backend g).settle.perform acts
    let r := match f with
      | .wait => r.patient
      | _ => r
    { outcomes, exit := r.finish f, outbound := r.stage.outbound, cache }

end Gatehouse.Script
