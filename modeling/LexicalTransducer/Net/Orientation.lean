import LexicalTransducer.Text.Quoted

/-!
# Label orientation

By convention the lower tape of a net holds the surface forms.  A net that was compiled the other way round is
read inverted, with the two labels of every arc exchanged.
-/

namespace LexicalTransducer

/-- Which tape holds the surface forms. -/
inductive Orientation
  | normal
  | invert
deriving DecidableEq, Repr

namespace Orientation

def name : Orientation → String
  | normal => "normal"
  | invert => "invert"

def ofName? (name : String) : Option Orientation :=
  [normal, invert].find? fun o => o.name == name

def unknownNameMessage (given : String) : String :=
  "invalid label orientation " ++ Text.quote given ++ "; valid choices are: normal, invert"

end Orientation

end LexicalTransducer
