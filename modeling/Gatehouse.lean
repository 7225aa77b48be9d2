import Gatehouse.Job
import Gatehouse.Main
import Gatehouse.Proofs.Certificate.Delaying
import Gatehouse.Proofs.Certificate.Following
import Gatehouse.Proofs.Certificate.Forgetting
import Gatehouse.Proofs.Certificate.Lookup
import Gatehouse.Proofs.Health.GivingUp
import Gatehouse.Proofs.Health.OwnCheck
import Gatehouse.Proofs.Http.Dispatching
import Gatehouse.Proofs.Http.Forwarding
import Gatehouse.Proofs.Http.PlainServing
import Gatehouse.Proofs.Http.Rewriting
import Gatehouse.Proofs.Https.Exemption
import Gatehouse.Proofs.Https.PrivateMode
import Gatehouse.Proofs.Inspect.AfterClose
import Gatehouse.Proofs.Inspect.Exhausted
import Gatehouse.Proofs.Inspect.Fates
import Gatehouse.Proofs.Inspect.Forwarding
import Gatehouse.Proofs.Inspect.Front
import Gatehouse.Proofs.Launch.Hosts
import Gatehouse.Proofs.Launch.Interval
import Gatehouse.Proofs.Listen.Merged
import Gatehouse.Proofs.Listen.Redialing
import Gatehouse.Proofs.Listen.Sessions
import Gatehouse.Proofs.Relay.Pinning
import Gatehouse.Proofs.Route.Reloading
import Gatehouse.Proofs.Route.Targets
import Gatehouse.Proofs.Stream.Splicing
import Gatehouse.Proofs.Tls.Cutting
import Gatehouse.Proofs.Tls.Lossless
import Gatehouse.Proofs.Tls.Stopping
import Gatehouse.Route.Reload
import Gatehouse.Script.Folders
import Gatehouse.Script.Glance
import Gatehouse.Script.Inspecting
import Gatehouse.Script.Listening
import Gatehouse.Script.Probed
import Gatehouse.Script.Rehearsal
import Gatehouse.Proofs.Route.Arguments
import Gatehouse.Proofs.Certificate.Apart
import Gatehouse.Proofs.Certificate.Sessions
