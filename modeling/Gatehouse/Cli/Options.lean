import Gatehouse.Cli.Arguments
import Gatehouse.Duration
import Gatehouse.Net.Ip

/-!
# The options of the gateway

Each option has one entry in `specs`, which says how it is read, and one field in `Options`, which
says what it means and what holds when it is not given.
-/

namespace Gatehouse.Cli

open Text

def versionText : String := "doorway 0.1.0"

structure Options where
  httpsAddress : String := "0.0.0.0:8443"
  disableHttps : Bool := false
  httpAddress : String := "0.0.0.0:8080"
  disableHttp : Bool := false
  disableLocalListener : Bool := false
  /-- Routes as `HOST=TARGET`. -/
  routes : List String := []
  routesFile : Option String := none
  /-- Forwarded hosts as `HOST=ADDRESS`. -/
  forwards : List String := []
  privateMode : Bool := false
  publicHosts : List String := []
  certificatesDirectory : Option String := none
  acmeContactEmail : Option String := none
  acmeCacheDirectory : String := "./deploy/acme_cache"
  acmeUseStaging : Bool := false
  localProxyAddress : Option String := none
  healthCheckUrl : Option String := none
  healthCheckInterval : Duration := .ofSeconds 10
  disableHealthCheck : Bool := false
  clientHelloTimeout : Duration := .ofSeconds 5
  relayHost : Option String := none
  relayPort : Nat := 22
  relayAddresses : List Net.Ip := []
  relayUser : String := "doorway"
  relayKeyFile : String := "./deploy/fabrics_key"
  relayBindHost : String := "0.0.0.0"
  relayBindPort : Nat := 443
  relayFingerprint : Option String := none
deriving DecidableEq, Repr

/-! ## Values -/

def maxInteger : Int := 0x7fffffffffffffff

/-- Reads an integer: an optional sign and digits, within sixty-four bits. -/
def readInt? (s : String) : Option Int :=
  let n : Option Int := match s.toList with
    | '+' :: r => (readNat 10 r).map Int.ofNat
    | '-' :: r => (readNat 10 r).map fun n => -Int.ofNat n
    | r => (readNat 10 r).map Int.ofNat
  n.filter fun n => -maxInteger - 1 ≤ n && n ≤ maxInteger

def readBounded? (bound : Nat) (s : String) : Option Nat := do
  let n ← readInt? s
  if 0 ≤ n && n ≤ bound then some n.toNat else none

/-- A value that has to read as something. -/
def mustRead {α : Type} (read : String → Option α) (s : String) : Option ArgumentError :=
  if (read s).isSome then none else some .valueValidation

def pathError (s : String) : Option ArgumentError := if s = "" then some .invalidValue else none

def maxPort : Nat := 65535

def maxBindPort : Nat := 0xffffffff

/-! ## The table of options -/

/-- All options apart from those for help and version. -/
def specs : List OptionSpec :=
  [ ⟨"https-address", .once, fun _ => none⟩,
    ⟨"disable-https", .flag, fun _ => none⟩,
    ⟨"http-address", .once, fun _ => none⟩,
    ⟨"disable-http", .flag, fun _ => none⟩,
    ⟨"disable-local-listener", .flag, fun _ => none⟩,
    ⟨"route", .many, fun _ => none⟩,
    ⟨"routes-file", .once, pathError⟩,
    ⟨"forward", .many, fun _ => none⟩,
    ⟨"private-mode", .flag, fun _ => none⟩,
    ⟨"public-host", .many, fun _ => none⟩,
    ⟨"certificates-directory", .once, pathError⟩,
    ⟨"acme-contact-email", .once, fun _ => none⟩,
    ⟨"acme-cache-directory", .once, pathError⟩,
    ⟨"acme-use-staging", .flag, fun _ => none⟩,
    ⟨"local-proxy-address", .once, fun _ => none⟩,
    ⟨"health-check-url", .once, fun _ => none⟩,
    ⟨"health-check-interval", .once, mustRead Duration.ofText?⟩,
    ⟨"disable-health-check", .flag, fun _ => none⟩,
    ⟨"client-hello-timeout", .once, mustRead Duration.ofText?⟩,
    ⟨"fabrics-host", .once, fun _ => none⟩,
    ⟨"fabrics-port", .once, mustRead (readBounded? maxPort)⟩,
    ⟨"fabrics-address", .many, mustRead Net.Ip.ofText?⟩,
    ⟨"fabrics-user", .once, fun _ => none⟩,
    ⟨"fabrics-key-file", .once, pathError⟩,
    ⟨"fabrics-bind-host", .once, fun _ => none⟩,
    ⟨"fabrics-bind-port", .once, mustRead (readBounded? maxBindPort)⟩,
    ⟨"fabrics-host-key-fingerprint", .once, fun _ => none⟩ ]

def helpText : String :=
  let line (spec : OptionSpec) : String :=
    "  --" ++ spec.name ++ if spec.arity == .flag then "" else " <VALUE>"
  "\n".intercalate
    ("Usage: doorway [OPTIONS]" :: "" :: "Options:" :: specs.map line ++
      ["  -h, --help", "  -V, --version"])

def Given.value? (g : Given) (name : String) : Option String := g.lookup name

def Given.values (g : Given) (name : String) : List String :=
  (g.filter (·.1 == name)).map (·.2)

def Given.flag (g : Given) (name : String) : Bool := g.any (·.1 == name)

def Options.ofGiven (g : Given) : Options :=
  let d : Options := {}
  { httpsAddress := (Given.value? g "https-address").getD d.httpsAddress
    disableHttps := Given.flag g "disable-https"
    httpAddress := (Given.value? g "http-address").getD d.httpAddress
    disableHttp := Given.flag g "disable-http"
    disableLocalListener := Given.flag g "disable-local-listener"
    routes := Given.values g "route"
    routesFile := Given.value? g "routes-file"
    forwards := Given.values g "forward"
    privateMode := Given.flag g "private-mode"
    publicHosts := Given.values g "public-host"
    certificatesDirectory := Given.value? g "certificates-directory"
    acmeContactEmail := Given.value? g "acme-contact-email"
    acmeCacheDirectory := (Given.value? g "acme-cache-directory").getD d.acmeCacheDirectory
    acmeUseStaging := Given.flag g "acme-use-staging"
    localProxyAddress := Given.value? g "local-proxy-address"
    healthCheckUrl := Given.value? g "health-check-url"
    healthCheckInterval :=
      ((Given.value? g "health-check-interval").bind Duration.ofText?).getD d.healthCheckInterval
    disableHealthCheck := Given.flag g "disable-health-check"
    clientHelloTimeout :=
      ((Given.value? g "client-hello-timeout").bind Duration.ofText?).getD d.clientHelloTimeout
    relayHost := Given.value? g "fabrics-host"
    relayPort := ((Given.value? g "fabrics-port").bind (readBounded? maxPort)).getD d.relayPort
    relayAddresses := (Given.values g "fabrics-address").filterMap Net.Ip.ofText?
    relayUser := (Given.value? g "fabrics-user").getD d.relayUser
    relayKeyFile := (Given.value? g "fabrics-key-file").getD d.relayKeyFile
    relayBindHost := (Given.value? g "fabrics-bind-host").getD d.relayBindHost
    relayBindPort :=
      ((Given.value? g "fabrics-bind-port").bind (readBounded? maxBindPort)).getD d.relayBindPort
    relayFingerprint := Given.value? g "fabrics-host-key-fingerprint" }

def Options.ofArguments (args : List String) : Except ArgumentError Options :=
  (readArguments specs args).map ofGiven

end Gatehouse.Cli
