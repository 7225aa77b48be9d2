import Gatehouse.Certificate.Leaf
import Gatehouse.File.Path

/-!
# Certificates on disk

A directory holds one folder per certificate, with its chain and its key.  The certificates are
found by their names: each is filed under the labels of its names from right to left, a wildcard
under those of its base, and a search goes through the certificates whose labels are a prefix of
those asked for, the shortest first, up to one that is valid for the name.

Loading fails on the first folder that does not hold a certificate with its key.
-/

namespace Gatehouse.Certificate

open Text

inductive ChainFile where
  | missing
  /-- Something that cannot be read to its end. -/
  | unreadable
  /-- The entries that are certificates; an entry may not be well formed. -/
  | certificates (entries : List (Option Leaf))

inductive KeyFile where
  | missing
  | unreadable
  | key (keyPair : Nat)

/-- An entry of the directory of certificates. -/
inductive Folder where
  | file
  | folder (chain : ChainFile) (key : KeyFile)

/-- The certificate of a folder, if chain and key belong together. -/
def Folder.certified? (chain : ChainFile) (key : KeyFile) : Option Leaf :=
  match chain, key with
  | .certificates (some leaf :: _), .key k => if leaf.keyPair = k then some leaf else none
  | _, _ => none

inductive LoadError where
  | unreadableDirectory (path : String)
  | invalid (path : String)
deriving DecidableEq, Repr

def LoadError.message : LoadError → String
  | unreadableDirectory path => "Error reading certificates directory " ++ path
  | invalid path => "Invalid certificate in " ++ path

/-- Certificates by the labels they are filed under, each list of labels at most once. -/
structure Store where
  entries : List (List String × Leaf) := []

def reversedLabels (name : String) : List String :=
  ((splitAll (· == '.') name.toList).map String.ofList).reverse

/-- The labels that a name is filed under. -/
def indexLabels (name : String) : List String :=
  reversedLabels ((wildcardBase? name).getD name)

namespace Store

def empty : Store := {}

/-- Files a certificate, in place of another under the same labels. -/
def file (s : Store) (labels : List String) (c : Leaf) : Store :=
  ⟨s.entries.filter (·.1 ≠ labels) ++ [(labels, c)]⟩

/-- Files a certificate under each of its names. -/
def add (s : Store) (c : Leaf) : Store :=
  c.dnsNames.foldl (fun s name => s.file (indexLabels name) c) s

/-- The certificates whose labels are a prefix of a list, the shortest first. -/
def prefixSearch (s : Store) (labels : List String) : List Leaf :=
  ((s.entries.filter fun e => e.1.isPrefixOf labels).mergeSort
    fun a b => a.1.length ≤ b.1.length).map (·.2)

def get? (s : Store) (serverName : String) : Option Leaf :=
  if Tls.DnsName.isValid serverName then
    (s.prefixSearch (reversedLabels serverName)).find? (·.isValidFor serverName)
  else none

def covers (s : Store) (serverName : String) : Bool := (s.get? serverName).isSome

def addFolders (directory : String) : Store → List (String × Folder) → Except LoadError Store
  | s, [] => .ok s
  | s, (_, .file) :: r => addFolders directory s r
  | s, (name, .folder chain key) :: r =>
    match Folder.certified? chain key with
    | none => .error (.invalid (File.join directory name))
    | some c => addFolders directory (s.add c) r

/-- Loads a directory; `none` stands for one that cannot be read. -/
def load (directory : String) (folders : Option (List (String × Folder))) :
    Except LoadError Store :=
  match folders with
  | none => .error (.unreadableDirectory directory)
  | some fs => addFolders directory empty fs

end Store

end Gatehouse.Certificate
