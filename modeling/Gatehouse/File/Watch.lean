import Gatehouse.File.Path

/-!
# Watching one file

The directory that holds the file is watched instead of the file itself, so that a file that is
replaced rather than changed in place is still noticed.  Of the changes in that directory only
those count that create, modify or remove an entry with the name of the file.
-/

namespace Gatehouse.File

inductive ChangeKind where
  | created | modified | removed | accessed | unspecified | other
deriving DecidableEq, Repr

inductive Change where
  | failure
  | change (kind : ChangeKind) (paths : List String)
deriving Repr

/-- A watched file: its name, and its directory unless that is the current one. -/
structure Watch where
  name : String
  directory : Option String
deriving DecidableEq, Repr

inductive WatchError where
  | notAFile (path : String)
deriving DecidableEq, Repr

def WatchError.message : WatchError → String
  | notAFile path => path ++ " is not a file path"

namespace Watch

def ofPath (path : String) : Except WatchError Watch :=
  match fileName? path with
  | none => .error (.notAFile path)
  | some name =>
    let directory := directoryOf path
    .ok ⟨name, if directory.isEmpty then none else some directory⟩

/-- Whether a kind of change can alter what the file holds. -/
def concerns : ChangeKind → Bool
  | .created | .modified | .removed => true
  | _ => false

def notices (w : Watch) : Change → Bool
  | .failure => false
  | .change kind paths => concerns kind && paths.any fun p => fileName? p == some w.name

end Watch

end Gatehouse.File
