import Gatehouse.Launch.Startup

/-!
# The command line

Reads the options and checks them, together with the files that they name, the way it is done
before a gateway starts.  Certificates and keys are taken as they are: what is in them shows when
they are used.
-/

namespace Gatehouse.CommandLine

open Cli Certificate Launch

/-- The result of an action, if it does not fail. -/
def attempt? {α : Type} (action : IO α) : IO (Option α) := do
  try return some (← action) catch _ => return none

def readFile? (path : String) : IO (Option Octets) := do
  return (← attempt? (IO.FS.readBinFile path)).map (·.toList)

/-- What a folder of certificates looks like from outside. -/
def readFolder (path : String) : IO Folder := do
  let leaf : Leaf := { label := path, names := [], timing := ⟨"", 0, 0⟩, keyPair := 0 }
  let chain ← readFile? (File.join path "fullchain.pem")
  let key ← readFile? (File.join path "privkey.pem")
  return .folder (if chain.isSome then .certificates [some leaf] else .missing)
    (if key.isSome then .key 0 else .missing)

/-- The folders of a directory of certificates, if it can be read. -/
def readFolders? (path : String) : IO (Option (List (String × Folder))) := do
  let entries ← attempt? do (← IO.FS.realPath path).readDir
  entries.mapM fun entries => entries.toList.mapM fun entry => do
    if ← entry.path.isDir then return (entry.fileName, ← readFolder entry.path.toString)
    else return (entry.fileName, .file)

/-- What a key for the relay has to hold. -/
def keyMark : String := "PRIVATE KEY"

/-- A key for the relay, if the file looks like one. -/
def readKey? (path : String) : IO (Option Relay.PublicKey) := do
  let text := ((← readFile? path).bind Octets.text?).getD ""
  return if 1 < (text.splitOn keyMark).length then some ⟨[]⟩ else none

/-- The files that the options name, and a world in which nothing else is there. -/
def surroundings (o : Options) : IO Surroundings := do
  let routes ← match o.routesFile with
    | some path => readFile? path
    | none => pure none
  let folders ← match o.certificatesDirectory with
    | some path => readFolders? path
    | none => pure none
  let key ← readKey? o.relayKeyFile
  return {
    file := fun _ => routes
    certificates := fun _ => folders
    key := fun _ => key
    cache := fun _ => .missing
    canCreate := fun _ => false
    canBind := fun _ => false
    lookup := fun host => .error host
    relay := { accepts := fun _ => false, hostKey := ⟨[]⟩, authenticates := fun _ _ => false,
               forwards := fun _ _ => none } }

def complain (message : String) : IO Unit := do
  (← IO.getStderr).putStrLn ("Error: " ++ message)

/-- Checks options and says what they make. -/
def run (o : Options) : IO UInt32 := do
  match checked o (← surroundings o) with
  | .error e =>
    complain e.message
    return e.exitCode.toUInt32
  | .ok c =>
    unless o.disableHttps do IO.println ("HTTPS: " ++ c.settings.https.text)
    unless o.disableHttp do IO.println ("HTTP: " ++ c.settings.http.text)
    for (host, route) in c.routes.entries do IO.println (host ++ ": " ++ route.text)
    return 0

end Gatehouse.CommandLine

open Gatehouse.Cli in
def main (args : List String) : IO UInt32 := do
  match Options.ofArguments args with
  | .error e =>
    match e with
    | .displayHelp => IO.println helpText
    | .displayVersion => IO.println versionText
    | e => Gatehouse.CommandLine.complain e.message
    return e.exitCode.toUInt32
  | .ok o => Gatehouse.CommandLine.run o
