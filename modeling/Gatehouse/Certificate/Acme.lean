import Gatehouse.Certificate.Store

/-!
# Certificates by ACME

Certificates that are not on disk are ordered for the hosts that are routed.  A session orders them
for one set of domains; it goes on as long as the set stays the same, and there is none for the
empty set.
-/

namespace Gatehouse.Certificate

/-- The hosts that certificates are ordered for: DNS names that no certificate on disk covers. -/
def acmeDomains (manual : Store) (hosts : List String) : List String :=
  hosts.filter fun host =>
    (Net.Ip.ofText? host).isNone && Tls.DnsName.isValid host && !manual.covers host

/-- The list without elements that equal the one before them. -/
def dropRepeats : List String → List String
  | [] => []
  | [a] => [a]
  | a :: b :: r => if a = b then dropRepeats (b :: r) else a :: dropRepeats (b :: r)

/-- The set of domains as a list: in ascending order and each once. -/
def domainSet (domains : List String) : List String :=
  dropRepeats (domains.mergeSort fun a b => a ≤ b)

structure AcmeSession where
  domains : List String
  /-- How many sessions there were before. -/
  number : Nat
deriving DecidableEq, Repr

structure Acme where
  session : Option AcmeSession := none
  /-- How many sessions were started. -/
  started : Nat := 0
deriving DecidableEq, Repr

namespace Acme

def update (a : Acme) (domains : List String) : Acme :=
  let domains := domainSet domains
  let unchanged := match a.session with
    | some s => s.domains == domains
    | none => domains.isEmpty
  if unchanged then a
  else if domains.isEmpty then { a with session := none }
  else { session := some ⟨domains, a.started⟩, started := a.started + 1 }

def answersChallenges (a : Acme) : Bool := a.session.isSome

end Acme

/-! ## The cache -/

/-- What the files of account keys start with. -/
def accountMark : List Char := "cached_account_".toList

structure CacheEntry where
  name : String
  isFile : Bool
deriving DecidableEq, Repr

/-- What is found in place of the cache directory. -/
inductive CacheDirectory where
  | missing
  /-- Something that is no directory. -/
  | unreadable
  | entries (entries : List CacheEntry)
deriving Repr

inductive PurgeError where
  | unreadableDirectory (path : String)
deriving DecidableEq, Repr

def PurgeError.message : PurgeError → String
  | unreadableDirectory path => "Error reading ACME cache directory " ++ path

/-- Whether purging leaves an entry: directories, and the keys of accounts. -/
def CacheEntry.isKept (e : CacheEntry) : Bool :=
  !e.isFile || accountMark.isPrefixOf e.name.toList

/-- Removes the files of a cache but the keys of accounts: how many went, and what is left. -/
def purge (path : String) : CacheDirectory → Except PurgeError (Nat × List CacheEntry)
  | .missing => .ok (0, [])
  | .unreadable => .error (.unreadableDirectory path)
  | .entries es => .ok ((es.filter fun e => !e.isKept).length, es.filter (·.isKept))

end Gatehouse.Certificate
