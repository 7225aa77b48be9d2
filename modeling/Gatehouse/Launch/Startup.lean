import Gatehouse.Certificate.Acme
import Gatehouse.File.Watch
import Gatehouse.Health.Checker
import Gatehouse.Launch.Settings
import Gatehouse.Listen.Mux
import Gatehouse.Relay.Dialing

/-!
# Starting the gateway

Everything that can be checked is checked first: the options, the routes with their file, the key
for the relay, and the certificates.  In between the file of routes begins to be watched; that is
all.  Only then is the cache of ACME tidied, an address bound, a relay dialed, and a server begun.
`start` tells what was done, also when it fails.
-/

namespace Gatehouse.Launch

open Cli Certificate Relay

inductive GatewayError where
  | settings (error : SettingsError)
  | route (error : RouteError)
  | routesFile (error : RoutesFileError)
  | unwatchable (error : File.WatchError)
  | relayKey (path : String)
  | certificates (error : LoadError)
  | purging (error : PurgeError)
  | cacheDirectory (path : String)
  | binding (address : Net.SocketAddress)
  | relay (error : RelayError)
  | merging (error : ListenerError)
  /-- There is no timer for the interval of the health checks. -/
  | noTimer
  | unhealthy (failures : Nat)
deriving DecidableEq, Repr

/-- What the gateway was about when the error came. -/
def GatewayError.context? : GatewayError → Option String
  | settings _ => none
  | route _ => some "Invalid route"
  | routesFile e => some e.message
  | unwatchable _ => some "Error setting up routes file watcher"
  | relayKey _ => none
  | certificates _ => some "Error loading certificates"
  | purging _ => some "Error purging ACME cache"
  | cacheDirectory _ => some "Error creating ACME cache directory"
  | binding _ => some "Error listening to HTTPS address"
  | relay _ => some "Error connecting to relay"
  | merging _ => none
  | noTimer => none
  | unhealthy _ => some "Gateway is unhealthy"

def GatewayError.message : GatewayError → String
  | settings e => e.message
  | route e => e.message
  | routesFile e => e.message
  | unwatchable e => e.message
  | relayKey path => "Unable to read relay key " ++ path
  | certificates e => e.message
  | purging e => e.message
  | cacheDirectory path => "Unable to create " ++ path
  | binding address => "Unable to listen to " ++ address.text
  | relay e => e.message
  | merging e => e.message
  | noTimer => "No timer for health checks"
  | unhealthy failures => Health.unhealthyMessage failures

def GatewayError.exitCode : GatewayError → Nat
  | noTimer => 101
  | _ => 1

/-- The part of the world that matters when the gateway starts. -/
structure Surroundings where
  /-- The content of a file, if it can be read. -/
  file : String → Option Octets
  /-- The folders of a directory of certificates, if it can be read. -/
  certificates : String → Option (List (String × Folder))
  /-- The public half of the key in a file, if there is one. -/
  key : String → Option PublicKey
  cache : String → CacheDirectory
  /-- Whether a directory is there or can be made. -/
  canCreate : String → Bool
  canBind : Net.SocketAddress → Bool
  lookup : Lookup
  relay : Relay.Server

/-- Something that is done while the gateway starts. -/
inductive StartStep where
  /-- The file of routes is watched from now on. -/
  | watch (path : String)
  | purgeCache (removed : Nat)
  | createCache
  /-- Plain HTTP is served from now on, if its address can be bound. -/
  | servePlain (address : Net.SocketAddress)
  | bind (address : Net.SocketAddress)
  | dial (step : DialStep)
  | serveHttps
  | checkHealth
deriving DecidableEq, Repr

structure Gateway where
  options : Options
  settings : Settings
  base : Routes
  table : RouteTable
  manual : Store
  /-- What is left of the cache of ACME, if that is used. -/
  cache : Option (List CacheEntry)
  /-- Where the relay takes connections for it. -/
  tunnel : Option ListenerAddress

/-! ## What is done -/

/-- What starts the gateway does one thing after the other, and may fail. -/
abbrev Start := ExceptT GatewayError (StateM (List StartStep))

def done (step : StartStep) : Start Unit := modify (· ++ [step])

/-- A result whose errors are errors of the gateway. -/
def ensure {ε α : Type} (error : ε → GatewayError) : Except ε α → Start α
  | .ok a => pure a
  | .error e => throw (error e)

/-! ## What is checked -/

/-- The routes of the options, and the same with those of the file over them. -/
def routesOf (o : Options) (w : Surroundings) : Except GatewayError (Routes × Routes) := do
  let base ← (Routes.parseArguments o.routes).mapError .route
  match o.routesFile with
  | none => return (base, base)
  | some path =>
    let upper ← (Routes.load path (w.file path)).mapError .routesFile
    return (base, base.overlay upper)

/-- The file of routes is watched from now on, if there is one. -/
def startWatch (o : Options) : Start Unit := do
  match o.routesFile with
  | none => return
  | some path =>
    let _ ← ensure .unwatchable (File.Watch.ofPath path)
    done (.watch path)

/-- What the relay is dialed with, if there is one and HTTPS is served. -/
def dialerOf (o : Options) (w : Surroundings) : Except GatewayError (Option Dialer) :=
  match o.relayHost with
  | none => .ok none
  | some host =>
    if o.disableHttps then .ok none
    else match w.key o.relayKeyFile with
      | none => .error (.relayKey o.relayKeyFile)
      | some key =>
        .ok (some { host, port := o.relayPort, addresses := o.relayAddresses, user := o.relayUser,
                    key, bindHost := o.relayBindHost, bindPort := o.relayBindPort,
                    pin := o.relayFingerprint })

def storeOf (o : Options) (w : Surroundings) : Except GatewayError Store :=
  match o.certificatesDirectory with
  | none => .ok .empty
  | some path => (Store.load path (w.certificates path)).mapError .certificates

/-- All that is known before anything is done. -/
structure Checked where
  settings : Settings
  base : Routes
  routes : Routes
  dialer : Option Dialer
  manual : Store

/-- Checks the options with the files that they name, in the order in which errors are reported. -/
def check (o : Options) (w : Surroundings) : Start Checked := do
  let settings ← ensure .settings (Settings.ofOptions o)
  let (base, routes) ← ensure id (routesOf o w)
  startWatch o
  let dialer ← ensure id (dialerOf o w)
  let manual ← ensure id (storeOf o w)
  return { settings, base, routes, dialer, manual }

/-- What comes of the checks. -/
def checked (o : Options) (w : Surroundings) : Except GatewayError Checked :=
  ((check o w).run.run []).1

/-! ## What is begun -/

/-- The cache of ACME is tidied, if there is somebody to order for. -/
def startCache (o : Options) (w : Surroundings) : Start (Option (List CacheEntry)) := do
  match o.acmeContactEmail with
  | none => return none
  | some _ =>
    let path := o.acmeCacheDirectory
    let (removed, left) ← ensure .purging (purge path (w.cache path))
    done (.purgeCache removed)
    if !w.canCreate path then throw (.cacheDirectory path)
    done .createCache
    return some left

/-- The relay is dialed. -/
def startTunnel (d : Option Dialer) (w : Surroundings) : Start (Option ListenerAddress) := do
  match d with
  | none => return none
  | some d =>
    let (steps, result) := d.dial w.lookup w.relay
    modify (· ++ steps.map .dial)
    return some (← ensure .relay result)

def startLocal (o : Options) (s : Settings) (w : Surroundings) :
    Start (Option ListenerAddress) := do
  if o.disableLocalListener then return none
  if !w.canBind s.https then throw (.binding s.https)
  done (.bind s.https)
  return some (.socket s.https)

/-- HTTPS is served from both sources together; where the relay takes connections for it. -/
def startHttps (o : Options) (s : Settings) (d : Option Dialer) (w : Surroundings) :
    Start (Option ListenerAddress) := do
  if o.disableHttps then return none
  let direct ← startLocal o s w
  let tunnel ← startTunnel d w
  let _ : Listen.Mux ListenerAddress Unit ← ensure .merging (Listen.Mux.ofSources direct tunnel)
  done .serveHttps
  return tunnel

/-- The checks of the gateway's health begin, if there is a URL to probe. -/
def startChecks (o : Options) (s : Settings) : Start Unit := do
  if (healthUrl o s.http).isSome then
    if (Health.Checker.start? o.healthCheckInterval).isNone then throw .noTimer
    done .checkHealth

/-! ## The whole -/

def startChecked (o : Options) (w : Surroundings) (c : Checked) : Start Gateway := do
  let cache ← startCache o w
  if !o.disableHttp then done (.servePlain c.settings.http)
  let tunnel ← startHttps o c.settings c.dialer w
  startChecks o c.settings
  return { options := o, settings := c.settings, base := c.base, table := { routes := c.routes },
           manual := c.manual, cache, tunnel }

def startGateway (o : Options) (w : Surroundings) : Start Gateway := do
  let c ← check o w
  startChecked o w c

/-- Starts the gateway: what was done, and the gateway or why there is none. -/
def start (o : Options) (w : Surroundings) : Except GatewayError Gateway × List StartStep :=
  (startGateway o w).run.run []

end Gatehouse.Launch
