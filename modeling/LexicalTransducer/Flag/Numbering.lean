import LexicalTransducer.Flag.Named
import Std.Data.ExtTreeMap

/-!
# Numbers for feature and value names

All flags of one alphabet share a numbering.  Features are numbered from zero and values from one, so that zero
stays free for "unset", both in the order in which the names first appear.  There are 65535 numbers for each.
-/

namespace LexicalTransducer

abbrev NameMap := Std.ExtTreeMap String Nat

/-- The number of a name: the one it has, or else the next free one if that is at most `last`. -/
def NameMap.number? (names : NameMap) (name : String) (first last : Nat) : Option (Nat × NameMap) :=
  match names[name]? with
  | some k => some (k, names)
  | none =>
    let k := first + names.size
    if k ≤ last then some (k, names.insert name k) else none

/-- The feature and value names seen so far. -/
structure FlagNames where
  features : NameMap := ∅
  values : NameMap := ∅
deriving DecidableEq

namespace FlagNames

/-- The last number a feature can have: the count of features has to fit 16 bits as well. -/
def lastFeature : Nat := 65534

def lastValue : Nat := 65535

def featureCount (names : FlagNames) : Nat :=
  names.features.size

def numberValue? (names : FlagNames) : Option String → Option (Nat × FlagNames)
  | none => some (unset, names)
  | some v => (names.values.number? v 1 lastValue).map fun (k, values) => (k, { names with values })

/-- Number the names of a flag.  The feature comes first and keeps its number where the value finds none. -/
def number (names : FlagNames) (flag : NamedFlag) (text : String) : Except FlagFault Flag × FlagNames :=
  match names.features.number? flag.feature 0 lastFeature with
  | none => (.error .tooManyNames, names)
  | some (feature, features) =>
    let names := { names with features }
    match names.numberValue? flag.value with
    | none => (.error .tooManyNames, names)
    | some (value, names) => (.ok { op := flag.op, feature, value, text }, names)

def read (names : FlagNames) (text : String) : Except FlagFault Flag × FlagNames :=
  match NamedFlag.ofText text with
  | .error e => (.error e, names)
  | .ok flag => names.number flag text

end FlagNames

end LexicalTransducer
