import Gatehouse.Route.File

/-!
# Reloading the routes file

The table in use is a base of routes with those of a file laid over it.  While the file is watched
each write to it leaves an event; a delivered event raises a flag.  The reloader waits for the
flag, lets a burst of events pass, lowers the flag, and only then reads the file.  So whatever is
written after the reading raises the flag again.  Content that does not load leaves the table as
it is.
-/

namespace Gatehouse

inductive ReloadPhase where
  | waiting
  /-- The flag was seen; the burst of events is let pass. -/
  | debouncing
  /-- The flag was lowered; the file is about to be read. -/
  | reading
  /-- The file was read with this content. -/
  | applying (content : Option Octets)

/-- A table kept in step with a routes file. -/
structure Reloader where
  path : String
  base : Routes
  /-- What the file holds; `none` if it is missing. -/
  file : Option Octets
  table : RouteTable
  watching : Bool := false
  /-- Events that are not delivered yet. -/
  undelivered : Nat := 0
  flag : Bool := false
  phase : ReloadPhase := .waiting

/-- What can happen to a reloader and its file. -/
inductive ReloadAct where
  | register
  | write (content : Option Octets)
  | deliver
  | notice
  | settle
  | read
  | apply

namespace Reloader

/-- The table that content of the file gives, if it loads. -/
def tableOf (r : Reloader) (content : Option Octets) : Option Routes :=
  match Routes.load r.path content with
  | .ok routes => some (r.base.overlay routes)
  | .error _ => none

/-- Loads the file for the first time; it has to load. -/
def start (path : String) (base : Routes) (file : Option Octets) :
    Except RoutesFileError Reloader :=
  match Routes.load path file with
  | .error e => .error e
  | .ok routes =>
    .ok { path := path, base := base, file := file, table := { routes := base.overlay routes } }

/-- One step; an action that cannot happen now changes nothing. -/
def step (r : Reloader) : ReloadAct → Reloader
  | .register => { r with watching := true }
  | .write content =>
    { r with file := content, undelivered := r.undelivered + if r.watching then 1 else 0 }
  | .deliver =>
    if 0 < r.undelivered then { r with undelivered := r.undelivered - 1, flag := true } else r
  | .notice =>
    match r.phase with
    | .waiting => if r.flag then { r with flag := false, phase := .debouncing } else r
    | _ => r
  | .settle =>
    match r.phase with
    | .debouncing => { r with flag := false, phase := .reading }
    | _ => r
  | .read =>
    match r.phase with
    | .reading => { r with phase := .applying r.file }
    | _ => r
  | .apply =>
    match r.phase with
    | .applying content =>
      let table := match r.tableOf content with
        | some routes => r.table.replace routes
        | none => r.table
      { r with table := table, phase := .waiting }
    | _ => r

def run (r : Reloader) (acts : List ReloadAct) : Reloader := acts.foldl step r

/-- A write that is noticed and read before anything else happens. -/
def writeSettled (r : Reloader) (content : Option Octets) : Reloader :=
  r.run [.write content, .deliver, .notice, .settle, .read, .apply]

end Reloader

end Gatehouse
