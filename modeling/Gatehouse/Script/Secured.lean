import Gatehouse.Https.Connection
import Gatehouse.Script.Delays
import Gatehouse.Script.Resolving
import Gatehouse.Script.Visit
import Gatehouse.Http.VirtualHosts

/-!
# Trying out the HTTPS server

A server on a stage: clients shake hands and send requests, scripted streams are let loose on it,
and the listener it serves fails or ends.  The clock moves on to the end of every step.
-/

namespace Gatehouse.Script

open Certificate Https

structure Guest where
  peer : Net.SocketAddress
  /-- The server name, if the client tells one. -/
  host : Option String
  protocols : List Octets
  /-- A request to send after the handshake, with the payload for a switched protocol. -/
  ask : Option (Http.Request × Octets)

def Guest.hello (g : Guest) : Tls.Hello := ⟨g.host.bind Tls.DnsName.announced?, g.protocols⟩

inductive Handshake where
  | failed
  /-- The certificate that the client was shown, by its name, the protocol, and what the client
  heard if it sent a request. -/
  | done (certificate : String) (protocol : Option Octets) (heard : Option Heard)

structure SecuredStage where
  resolver : ResolverTrial
  acmeTiming : Timing
  handshakeTimeout : Nat
  delays : DelayTrial := {}
  /-- When the server accepts the next connection. -/
  acceptsAt : Nat := 0
  /-- When the server has stopped or will have. -/
  stopsAt : Option Nat := none
  outbound : List Http.Outbound := []

namespace SecuredStage

/-- How long the server does not accept connections after an error. -/
def errorPause : Nat := 100

def now (s : SecuredStage) : Nat := s.delays.now

def sleep (s : SecuredStage) (time : Nat) : SecuredStage := { s with delays := s.delays.sleep time }

def isRunning (s : SecuredStage) : Bool := s.stopsAt.all (s.now < ·)

def fail (s : SecuredStage) : SecuredStage :=
  { s with acceptsAt := max s.acceptsAt s.now + errorPause }

def replace (s : SecuredStage) (routes : Routes) : SecuredStage :=
  { s with resolver := s.resolver.replace routes }

/-- The listener ends, or the server is told to stop. -/
def stop (s : SecuredStage) : SecuredStage :=
  { s with stopsAt := s.stopsAt.or (some (max s.acceptsAt s.now)) }

def server (s : SecuredStage) : Https.Server :=
  { manual := s.resolver.keeper.manual, table := s.resolver.keeper.table
    challenges := s.resolver.answersChallenges }

/-- The timing of a certificate and its name, if there is one. -/
def certificate? (s : SecuredStage) : Choice → Option (Timing × String)
  | .manual leaf => some (leaf.timing, leaf.label)
  | .acme => if s.resolver.ordering then some (s.acmeTiming, orderedName) else none
  | .none => none

/-- The server goes on with a connection whose hello it has. -/
def answer (s : SecuredStage) (hello : Tls.Hello) : Handshake × SecuredStage :=
  match s.server.receive hello with
  | .refused => (.failed, s)
  | .challenge => (.done "<challenge>" (some Tls.acmeProtocol) none, s)
  | .serve choice =>
    match s.certificate? choice with
    | none => (.failed, s)
    | some (timing, name) =>
      let (_, delays) := s.delays.use 0 timing
      let s := { s with delays }
      match negotiate [http11] hello.protocols with
      | none => (.failed, s)
      | some protocol => (.done name protocol none, s)

/-- The clock moves on until the server accepts a connection, unless it stops before. -/
def reach (s : SecuredStage) : Option SecuredStage :=
  let s' := s.sleep (s.acceptsAt - s.now)
  if s.stopsAt.isSome then none else some s'

def request (s : SecuredStage) (client : Http.Client) (peer : Net.SocketAddress)
    (r : Http.Request) (payload : Octets) : Heard × SecuredStage :=
  let serve := Http.serveHttps s.resolver.keeper.table client peer
  (visit serve r payload, { s with outbound := s.outbound ++ (sentOn serve r).toList })

/-- A client connects: what the handshake comes to and how long it takes. -/
def connect (s : SecuredStage) (client : Http.Client) (g : Guest) :
    Handshake × Nat × SecuredStage :=
  match s.reach with
  | none => (.failed, 0, s)
  | some t =>
    let isServed := t.server.opens (fun c => (t.certificate? c).isSome) g.hello
    match t.answer g.hello, g.ask with
    | (.done certificate protocol _, t), some (r, payload) =>
      let (heard, t) := if isServed then t.request client g.peer r payload else (.nothing, t)
      (.done certificate protocol (some heard), t.now - s.now, t)
    | (handshake, t), _ => (handshake, t.now - s.now, t)

/-! ## Scripted streams -/

/-- A stream that gives one octet at a time and then is silent. -/
def readSingly : ReadFrom Octets := fun _ bs =>
  match bs with
  | [] => (.pending, [])
  | b :: r => (.data [b], r)

/-- What follows the hello in a stream, and how the stream ends. -/
def afterHello (stream : ScriptedStream) : Octets × ReadResult :=
  let (bs, last, _) := readToEnd ScriptedStream.read Tls.chunkSize stream.reads stream
  match Tls.peek readSingly Tls.helloAcceptor bs with
  | .hello _ s => (s.inner, last)
  | _ => ([], last)

/-- When the server lets go of a scripted stream, if it does, after it has accepted it. -/
def letGo (s : SecuredStage) (stream : ScriptedStream) : Option Nat × SecuredStage :=
  match Tls.receive ScriptedStream.read Tls.helloAcceptor stream with
  | .pending => (some (s.now + s.handshakeTimeout), s)
  | .failed _ => (some s.now, s)
  | .hello hello _ =>
    match s.answer hello with
    | (.failed, s) => (some s.now, s)
    | (.done .., s) =>
      match afterHello stream with
      | ([], .pending) => (none, s)
      | _ => (some s.now, s)

/-- How long the script waits for a stream to be let go. -/
def watchTime : Nat := 60000

/-- The time up to the next look at a stream. -/
def roundUp (time : Nat) : Nat := (time + 9) / 10 * 10

/-- A scripted stream connects: whether the server lets go of it, and after what time. -/
def release (s : SecuredStage) (stream : ScriptedStream) : Bool × Nat × SecuredStage :=
  match s.reach with
  | none => (true, 0, s)
  | some t =>
    let (time, t) := t.letGo stream
    let elapsed := match time with
      | some time => roundUp (time - s.now)
      | none => watchTime + 1
    let dropped := elapsed ≤ watchTime
    let elapsed := min elapsed watchTime
    (dropped, elapsed, t.sleep (s.now + elapsed - t.now))

end SecuredStage

end Gatehouse.Script
