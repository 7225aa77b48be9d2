import Gatehouse.Cli.Options
import Gatehouse.Inspect.Policy
import Gatehouse.Net.SocketAddress
import Gatehouse.Route.File
import Gatehouse.Http.Admin

/-!
# What the options mean

The options are texts; before anything is started they are read as addresses, forwarded hosts,
public hosts and routes.
-/

namespace Gatehouse.Launch

open Text Cli

inductive SettingsError where
  | nothingToServe
  | noConnectionSource
  | invalidListenAddress (address : String)
  | invalidForward (forward : String)
deriving DecidableEq, Repr

def SettingsError.message : SettingsError → String
  | nothingToServe => "Both HTTP and HTTPS are disabled"
  | noConnectionSource =>
    "HTTPS is enabled but has no connection source (local listener disabled and no relay host)"
  | invalidListenAddress address => "Invalid listen address " ++ address
  | invalidForward forward => "Invalid forward " ++ forward ++ ", expected HOST=ADDRESS"

def listenAddress (address : String) : Except SettingsError Net.SocketAddress :=
  match Net.SocketAddress.ofText? address with
  | some a => .ok a
  | none => .error (.invalidListenAddress address)

/-- Reads one `HOST=ADDRESS`: neither side may be blank. -/
def forwardOf (forward : String) : Except SettingsError (String × String) :=
  match cut '=' forward with
  | some (host, address) =>
    if trim host = "" || trim address = "" then .error (.invalidForward forward)
    else .ok (Host.canonical host, trim address)
  | none => .error (.invalidForward forward)

/-- The forwarded hosts with their addresses; the last entry for a host comes first and wins. -/
def forwardsOf (forwards : List String) : Except SettingsError (List (String × String)) :=
  forwards.foldlM (fun fs f => do
    let (host, address) ← forwardOf f
    return (host, address) :: fs.filter (·.1 ≠ host)) []

def policyOf (o : Options) (forwards : List (String × String)) : Inspect.Policy :=
  { forwards := forwards
    privateMode := o.privateMode
    publicHosts := o.publicHosts.map Host.canonical
    helloTimeout := o.clientHelloTimeout.toMillis }

/-- The URL that health checks probe, when plain HTTP listens on the address. -/
def healthUrl (o : Options) (http : Net.SocketAddress) : Option String :=
  if o.disableHealthCheck then none
  else match o.healthCheckUrl with
    | some url => some url
    | none =>
      if o.disableHttp then none
      else some ("http://127.0.0.1:" ++ toString http.port ++ Http.Admin.healthPath)

structure Settings where
  https : Net.SocketAddress
  http : Net.SocketAddress
  policy : Inspect.Policy

/-- Reads the options in the order in which errors are reported. -/
def Settings.ofOptions (o : Options) : Except SettingsError Settings := do
  if o.disableHttp && o.disableHttps then throw .nothingToServe
  if !o.disableHttps && o.disableLocalListener && o.relayHost.isNone then
    throw .noConnectionSource
  let https ← listenAddress o.httpsAddress
  let http ← listenAddress o.httpAddress
  let forwards ← forwardsOf o.forwards
  return ⟨https, http, policyOf o forwards⟩

/-! ## Lemmas -/

theorem exists_of_bind {ε α β : Type} {x : Except ε α} {f : α → Except ε β} {b : β}
    (h : x >>= f = .ok b) : ∃ a, x = .ok a ∧ f a = .ok b := by
  cases x with
  | error e => cases h
  | ok a => exact ⟨a, rfl, h⟩

theorem ofText?_of_listenAddress {address : String} {a : Net.SocketAddress}
    (h : listenAddress address = .ok a) : Net.SocketAddress.ofText? address = some a := by
  unfold listenAddress at h
  split at h
  · next b hb => rw [hb, Except.ok.inj h]
  · cases h

/-- What is read of options that make a configuration. -/
theorem Settings.of_ofOptions {o : Options} {s : Settings} (h : ofOptions o = .ok s) :
    Net.SocketAddress.ofText? o.httpsAddress = some s.https ∧
      Net.SocketAddress.ofText? o.httpAddress = some s.http ∧
      ∃ forwards, forwardsOf o.forwards = .ok forwards ∧ s.policy = policyOf o forwards := by
  unfold ofOptions at h
  by_cases hserve : (o.disableHttp && o.disableHttps) = true
  · rw [if_pos hserve] at h
    cases h
  by_cases hsource : (!o.disableHttps && o.disableLocalListener && o.relayHost.isNone) = true
  · rw [if_neg hserve, if_pos hsource] at h
    cases h
  rw [if_neg hserve, if_neg hsource] at h
  obtain ⟨https, hhttps, h⟩ := exists_of_bind h
  obtain ⟨http, hhttp, h⟩ := exists_of_bind h
  obtain ⟨forwards, hforwards, h⟩ := exists_of_bind h
  cases h
  exact ⟨ofText?_of_listenAddress hhttps, ofText?_of_listenAddress hhttp, forwards, hforwards, rfl⟩

end Gatehouse.Launch
