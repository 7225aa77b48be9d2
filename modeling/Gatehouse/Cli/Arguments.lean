import Gatehouse.Text.Split

/-!
# Command-line arguments

Arguments are read from left to right against a table of options.  An option's value stands in the
same argument after `=`, or in the next one as long as that does not start with a hyphen.  Such a
value is looked at only when the next option, or the end, is reached: so a complaint about it comes
after one about an unknown option.  There are no positional arguments.
-/

namespace Gatehouse.Cli

open Text

inductive ArgumentError where
  | unknownArgument
  /-- A value is missing, or is empty where it may not be. -/
  | invalidValue
  /-- A value does not read as what it stands for. -/
  | valueValidation
  /-- An option is given twice that may be given once. -/
  | argumentConflict
  /-- A value is given to an option that takes none. -/
  | tooManyValues
  | displayHelp
  | displayVersion
deriving DecidableEq, Repr

def ArgumentError.message : ArgumentError → String
  | unknownArgument => "unexpected argument"
  | invalidValue => "a value is required"
  | valueValidation => "invalid value"
  | argumentConflict => "an option cannot be used multiple times"
  | tooManyValues => "unexpected value for an option"
  | displayHelp => "help was asked for"
  | displayVersion => "the version was asked for"

def ArgumentError.exitCode : ArgumentError → Nat
  | displayHelp | displayVersion => 0
  | _ => 2

/-- How often an option may be given, and whether it takes a value. -/
inductive Arity where
  | flag
  | once
  | many
deriving DecidableEq, Repr

structure OptionSpec where
  /-- The name after two hyphens. -/
  name : String
  arity : Arity
  /-- What is wrong with a value. -/
  valueError : String → Option ArgumentError := fun _ => none

/-- A given option with its value; flags have none. -/
abbrev Given := List (String × String)

structure Reading where
  given : Given := []
  /-- An option whose value is in an argument of its own, and that value once it is there. -/
  pending : Option (OptionSpec × Option String) := none
  /-- Whether `--` was read, after which there are no options. -/
  closed : Bool := false

namespace Reading

def has (r : Reading) (name : String) : Bool := r.given.any (·.1 == name)

def add (r : Reading) (spec : OptionSpec) (value : Option String) : Except ArgumentError Reading :=
  match spec.arity, value with
  | .flag, _ =>
    if r.has spec.name then .error .argumentConflict
    else .ok { r with given := r.given ++ [(spec.name, "")] }
  | _, none => .error .invalidValue
  | arity, some v =>
    if arity == .once && r.has spec.name then .error .argumentConflict
    else match spec.valueError v with
      | some e => .error e
      | none => .ok { r with given := r.given ++ [(spec.name, v)] }

/-- Deals with the option that waits for its value. -/
def resolve (r : Reading) : Except ArgumentError Reading :=
  match r.pending with
  | none => .ok r
  | some (spec, value) => add { r with pending := none } spec value

def long (specs : List OptionSpec) (r : Reading) (body : String) : Except ArgumentError Reading :=
  let (name, attached) := match cut '=' body with
    | some (name, value) => (name, some value)
    | none => (body, none)
  if name == "help" || name == "version" then
    if attached.isSome then .error .tooManyValues
    else do
      let _ ← r.resolve
      .error (if name == "help" then .displayHelp else .displayVersion)
  else match specs.find? (·.name == name) with
    | none => .error .unknownArgument
    | some spec =>
      match spec.arity, attached with
      | .flag, some _ => .error .tooManyValues
      | .flag, none => do (← r.resolve).add spec none
      | _, some v => do (← r.resolve).add spec (some v)
      | _, none => do return { (← r.resolve) with pending := some (spec, none) }

/-- Reads a cluster of options with one hyphen; the first that is known decides. -/
def short (r : Reading) : List Char → Except ArgumentError Reading
  | 'h' :: _ => do let _ ← r.resolve; .error .displayHelp
  | 'V' :: _ => do let _ ← r.resolve; .error .displayVersion
  | _ => .error .unknownArgument

def plain (r : Reading) (arg : String) : Except ArgumentError Reading :=
  match r.pending with
  | some (spec, none) => .ok { r with pending := some (spec, some arg) }
  | _ => .error .unknownArgument

def step (specs : List OptionSpec) (r : Reading) (arg : String) : Except ArgumentError Reading :=
  if r.closed then .error .unknownArgument
  else match arg.toList with
    | ['-', '-'] => .ok { r with closed := true }
    | '-' :: '-' :: body => long specs r (String.ofList body)
    | '-' :: c :: body => short r (c :: body)
    | _ => plain r arg

end Reading

/-- The options that a list of arguments gives, in order. -/
def readArguments (specs : List OptionSpec) (args : List String) : Except ArgumentError Given := do
  let r ← args.foldlM (Reading.step specs) {}
  return (← r.resolve).given

end Gatehouse.Cli
