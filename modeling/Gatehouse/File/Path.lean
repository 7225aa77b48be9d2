import Gatehouse.Text.Split
import Gatehouse.Text.Blank

/-!
# File paths

A path is cut at its slashes.  Empty parts and parts `.` name nothing, unless the path starts with
`.`; the last part that names something is the file's name, and what stands before it is the
directory.  A path that ends in `..` or in a root has no file name.
-/

namespace Gatehouse.File

open Text

def parts (path : String) : List String := (splitAll (· == '/') path.toList).map String.ofList

/-- Parts without those at the end that name nothing; the first part always stays. -/
def significant : List String → List String
  | [] => []
  | first :: rest => first :: dropEndWhile (fun p => p == "" || p == ".") rest

def fileName? (path : String) : Option String :=
  match (significant (parts path)).reverse with
  | [] => none
  | [only] => if only == "" || only == "." || only == ".." then none else some only
  | last :: _ => if last == ".." then none else some last

/-- The directory that holds what the path names; empty for the current one. -/
def directoryOf (path : String) : String :=
  match significant (significant (parts path)).dropLast with
  | [""] => "/"
  | ps => "/".intercalate ps

def join (directory name : String) : String :=
  if directory.toList.getLast? == some '/' then directory ++ name else directory ++ "/" ++ name

end Gatehouse.File
