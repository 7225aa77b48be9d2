import Gatehouse.Hash.Ed25519
import Gatehouse.Text.Base64
import Gatehouse.Text.Blank
import Gatehouse.Text.Split

/-!
# Host keys and their fingerprints

A public key is what a relay shows to prove who it is; its fingerprint is a short text for it.  A
fingerprint that was pinned may stand with or without the name of the hash before it, and with
white space around it.
-/

namespace Gatehouse.Relay

open Text

structure PublicKey where
  octets : Octets
deriving DecidableEq, Repr

namespace PublicKey

/-- The name of the keys on the curve of Ed25519. -/
def ed25519Name : Octets := Octets.ofText "ssh-ed25519"

/-- Octets after their length. -/
def sized (bs : Octets) : Octets := Octets.bigEndian 4 bs.length ++ bs

/-- The key of a seed of thirty-two octets. -/
def ofSeed (seed : Octets) : PublicKey :=
  ⟨sized ed25519Name ++ sized (Hash.Ed25519.publicKey seed)⟩

/-- Reads a line with the name of the kind of key, the key, and perhaps a comment. -/
def ofText? (s : String) : Option PublicKey :=
  match splitAll (· == ' ') s.toList with
  | _ :: key :: _ => (Base64.decode? (String.ofList key)).map (⟨·⟩)
  | _ => none

/-- What a fingerprint begins with. -/
def fingerprintMark : String := "SHA256:"

/-- The fingerprint without the name of its hash. -/
def shortFingerprint (k : PublicKey) : String := Base64.encode (Hash.Sha2.sha256.digest k.octets)

def fingerprint (k : PublicKey) : String := fingerprintMark ++ k.shortFingerprint

/-- Whether a key has a pinned fingerprint. -/
def matchesPin (k : PublicKey) (pin : String) : Bool :=
  let pin := trim pin
  pin == k.fingerprint || pin == k.shortFingerprint

end PublicKey

end Gatehouse.Relay
