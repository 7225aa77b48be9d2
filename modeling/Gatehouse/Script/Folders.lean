import Gatehouse.Certificate.Store

/-!
# Made-up certificates

Certificates to try things out with, and what their folders look like if something is wrong with
them.  All times count from a moment that is called now.
-/

namespace Gatehouse.Script

open Certificate

/-- How many seconds a certificate of some age is valid for. -/
def lifetime : Int := 90 * 24 * 60 * 60

/-- The timing of a certificate of some age in seconds; without one it is valid at all times. -/
def lasting (serial : String) (age : Option Int) : Timing :=
  match age with
  | some age => ⟨serial, .ofSeconds (-age), .ofSeconds (lifetime - age)⟩
  | none => ⟨serial, .ofSeconds (-1000000000), .ofSeconds 100000000000⟩

/-- The number of the key pair of a certificate that is not asked for. -/
def otherKeyPair : Nat := 1000000

/-- What is in place of a folder with a certificate that has a fault. -/
def faulty (leaf : Leaf) (fault : String) : Folder :=
  let chain := ChainFile.certificates [some leaf]
  let key := KeyFile.key leaf.keyPair
  match fault with
  | "plain_file" => .file
  | "missing_chain" => .folder .missing key
  | "missing_key" => .folder chain .missing
  | "garbage_chain" | "empty_chain" | "key_in_chain" => .folder (.certificates []) key
  | "bad_base64_chain" | "unterminated_chain" => .folder .unreadable key
  | "not_der_chain" => .folder (.certificates [none]) key
  | "garbage_key" | "certificate_as_key" => .folder chain .unreadable
  | "mismatched_key" => .folder chain (.key otherKeyPair)
  | _ => .folder chain key

/-- The folder of a certificate that is made up. -/
def madeUp (number : Nat) (label : String) (names : List String) (age : Option Int)
    (fault : String) : Folder :=
  faulty
    { label, names := names.map .ofText, timing := lasting (toString number) age
      keyPair := number }
    fault

end Gatehouse.Script
