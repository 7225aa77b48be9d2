import Gatehouse.Health.Probe

/-!
# A scripted server for health checks

Each request is answered by the next entry of a script, and by the same entry for ever once the
script has ended.  A probe follows redirects within the server.  The clock moves by one interval
after each probe; a probe that is not answered fails when the clock has moved.
-/

namespace Gatehouse.Script

open Health

inductive ProbeAnswer where
  | status (status : Nat) (location : Option String)
  /-- The connection is closed. -/
  | close
  /-- There is no answer. -/
  | hang
deriving Repr

/-- A script: its entries, and the one that stands for all later ones. -/
structure ProbeScript where
  entries : List ProbeAnswer
  last : ProbeAnswer

namespace ProbeScript

def next (s : ProbeScript) : ProbeAnswer × ProbeScript :=
  match s.entries with
  | [] => (s.last, s)
  | a :: r => (a, { s with entries := r })

/-- A probe of a path: the paths requested, and the outcome unless there is no answer. -/
def probe : (redirects : Nat) → ProbeScript → Net.UrlPath →
    List Net.UrlPath × Option Outcome × ProbeScript
  | redirects, s, path =>
    match s.next with
    | (.close, s) => ([path], some .failure, s)
    | (.hang, s) => ([path], none, s)
    | (.status status location, s) =>
      match (if isRedirect status then location else none) with
      | none => ([path], some (outcomeOf status), s)
      | some location =>
        match redirects, path.resolve location with
        | redirects + 1, some next =>
          let (paths, outcome, s) := probe redirects s next
          (path :: paths, outcome, s)
        | _, _ => ([path], some .failure, s)

/-- A probe that fails if the clock has moved without an answer; the paths requested are noted. -/
def probeInTime (path : Net.UrlPath) (world : List Net.UrlPath × ProbeScript) :
    Outcome × (List Net.UrlPath × ProbeScript) :=
  let (paths, outcome, s) := probe maxRedirects world.2 path
  (outcome.getD .failure, (world.1 ++ paths, s))

/-- Probes while the clock can still move, and once more: the paths requested, and the checker. -/
def watch (path : Net.UrlPath) (moves : Nat) (c : Checker) (s : ProbeScript) :
    List Net.UrlPath × Checker :=
  match Checker.watch (probeInTime path) moves c ([], s) with
  | (.unhealthy n, paths, _) => (paths, .unhealthy n)
  | (.running n, paths, s) =>
    let (more, outcome, _) := probe maxRedirects s path
    (paths ++ more, outcome.elim (.running n) (Checker.running n).step)

/-- A checker whose probes reach nothing. -/
def watchNothing (moves : Nat) (c : Checker) : Checker :=
  (Checker.watch (fun _ => (.failure, ())) (moves + 1) c ()).1

/-- The lines of the requests for a path, if the server can be reached, and the checker. -/
def requests (path : Option Net.UrlPath) (moves : Nat) (c : Checker) (s : ProbeScript) :
    List String × Checker :=
  match path with
  | some path =>
    let (paths, c) := watch path moves c s
    (paths.map fun p => "GET " ++ p.text ++ " HTTP/1.1", c)
  | none => ([], watchNothing moves c)

end ProbeScript

end Gatehouse.Script
