import LexicalTransducer.Net.Orientation
import LexicalTransducer.Text.Decimal
import LexicalTransducer.Transducer.Basic

/-!
# Command-line options

Options and positional arguments may stand in any order, and `--` ends the options.  The transducer is the file
that an option names, or else the one of the environment variable, or else the first positional argument; the
positional arguments that are left are the words to look up.
-/

namespace LexicalTransducer.Command

/-- The environment variable that names a transducer file. -/
def pathVariable : String := "FOMA_FST_PATH"

structure Options where
  path : Option String := none
  orientation : Orientation := .normal
  direction : Direction := .analyze
  limits : Limits := {}
  words : List String := []
deriving DecidableEq

inductive OptionsError
  | missingValue (option : String)
  | unknownOption (option : String)
  | unknownOrientation (given : String)
  | badDepth (given : String)
deriving DecidableEq, Repr

def OptionsError.message : OptionsError → String
  | missingValue option => option ++ " requires a value"
  | unknownOption option => "unknown option " ++ option
  | unknownOrientation given => Orientation.unknownNameMessage given
  | badDepth given => "--max-depth expects a positive integer, got " ++ Text.quote given

inductive ValueOption
  | path
  | orientation
  | maxDepth
deriving DecidableEq, Repr

inductive Argument
  /-- An option together with its value. -/
  | assigned (option : ValueOption) (value : String)
  /-- An option whose value is the next argument. -/
  | valued (option : ValueOption)
  | invert
  | generate
  | endOfOptions
  | unknown
  | positional
deriving DecidableEq, Repr

/-- The options that take a value, by their long names. -/
def longNames : List (String × ValueOption) :=
  [("--fst", .path), ("--orientation", .orientation), ("--max-depth", .maxDepth)]

/-- The value behind `name=`. -/
def assignedValue? (name argument : String) : Option String :=
  ((name ++ "=").toList.isPrefixOf? argument.toList).map String.ofList

def Argument.ofText (argument : String) : Argument :=
  match longNames.findSome? fun (name, o) => (assignedValue? name argument).map (assigned o) with
  | some a => a
  | none =>
    match longNames.lookup argument with
    | some o => valued o
    | none =>
      match argument with
      | "-f" => valued .path
      | "--invert" | "-i" => invert
      | "--generate" | "-g" => generate
      | "--" => endOfOptions
      | "-" => positional
      | _ => if argument.toList.head? = some '-' then unknown else positional

namespace Options

/-- A depth has to be positive. -/
def depth (given : String) : Except OptionsError Nat :=
  match Text.nat64? given with
  | some (n + 1) => .ok (n + 1)
  | _ => .error (.badDepth given)

def assign (o : Options) (value : String) : ValueOption → Except OptionsError Options
  | .path => .ok { o with path := some value }
  | .orientation =>
    match Orientation.ofName? value with
    | some orientation => .ok { o with orientation }
    | none => .error (.unknownOrientation value)
  | .maxDepth => do return { o with limits := { maxDepth := ← depth value } }

/-- Read arguments.  `words` collects the positional ones. -/
def readArguments (o : Options) : List String → Except OptionsError Options
  | [] => .ok o
  | argument :: rest =>
    match Argument.ofText argument with
    | .assigned option value => do (← o.assign value option).readArguments rest
    | .valued option =>
      match rest with
      | [] => .error (.missingValue argument)
      | value :: rest => do (← o.assign value option).readArguments rest
    | .invert => { o with orientation := .invert }.readArguments rest
    | .generate => { o with direction := .generate }.readArguments rest
    | .endOfOptions => .ok { o with words := o.words ++ rest }
    | .unknown => .error (.unknownOption argument)
    | .positional => { o with words := o.words ++ [argument] }.readArguments rest

/-- Find the transducer where no option names it: in the environment, or in front of the words. -/
def withDefaultPath (o : Options) (environment : Option String) : Options :=
  match o.path, environment, o.words with
  | some _, _, _ => o
  | none, some path, _ => { o with path := some path }
  | none, none, path :: words => { o with path := some path, words }
  | none, none, [] => o

/-- Read a command line, given the value of the environment variable. -/
def ofArguments (environment : Option String) (arguments : List String) : Except OptionsError Options := do
  let o ← readArguments {} arguments
  return o.withDefaultPath environment

end Options

def wantsHelp (arguments : List String) : Bool :=
  arguments.any fun a => a == "--help" || a == "-h"

end LexicalTransducer.Command
