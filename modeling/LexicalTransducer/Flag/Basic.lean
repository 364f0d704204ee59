/-!
# Flag diacritics

A flag diacritic is a label such as `@U.CASE.ACC@`.  It consumes and emits nothing: it tests or changes one
feature of the environment that a path carries along.  An environment is a row of value numbers, one per feature,
in which zero means that the feature is unset.
-/

namespace LexicalTransducer

/-- The operations of a flag diacritic.  Requiring and disallowing come with a value and without. -/
inductive FlagOp
  /-- Set the feature to the value. -/
  | positive
  /-- Pass if the feature is unset or has the value, and set it. -/
  | unify
  /-- Pass if the feature has any value. -/
  | requireFeature
  /-- Pass if the feature has the value. -/
  | requireValue
  /-- Pass if the feature is unset. -/
  | disallowFeature
  /-- Pass unless the feature has the value. -/
  | disallowValue
  /-- Unset the feature. -/
  | clear
deriving DecidableEq, Repr

def FlagOp.letter : FlagOp → Char
  | .positive => 'P'
  | .unify => 'U'
  | .requireFeature | .requireValue => 'R'
  | .disallowFeature | .disallowValue => 'D'
  | .clear => 'C'

/-- The value number of a feature that is not set. -/
def unset : Nat := 0

/-- A flag diacritic whose names have been numbered.  `value` is `unset` where the operation has none. -/
structure Flag where
  op : FlagOp
  feature : Nat
  value : Nat
  text : String
deriving DecidableEq, Repr

namespace Flag

/-- Whether the flag lets a path through when its feature has the value `current`. -/
def admits (f : Flag) (current : Nat) : Bool :=
  match f.op with
  | .positive | .clear => true
  | .unify => current == unset || current == f.value
  | .requireFeature => current != unset
  | .requireValue => current == f.value
  | .disallowFeature => current == unset
  | .disallowValue => current != f.value

/-- What the flag writes into its feature, if anything. -/
def assigned? (f : Flag) : Option Nat :=
  match f.op with
  | .positive | .unify => some f.value
  | .clear => some unset
  | .requireFeature | .requireValue | .disallowFeature | .disallowValue => none

/-- Whether the flag lets a path with this environment through.  A feature outside the row counts as unset. -/
def test (f : Flag) (env : Array Nat) : Bool :=
  f.admits (env.getD f.feature unset)

/-- The environment behind the flag.  A feature outside the row is not written. -/
def apply (f : Flag) (env : Array Nat) : Array Nat :=
  match f.assigned? with
  | some v => env.setIfInBounds f.feature v
  | none => env

end Flag

end LexicalTransducer
