import LexicalTransducer.Graph.Arc
import LexicalTransducer.Net.Field
import LexicalTransducer.Net.Orientation
import LexicalTransducer.Net.StateLine
import Std.Data.ExtTreeSet

/-!
# The states section

What the lines of the section add up to: the arcs, the states they mention and which of these accept.  The source
of a line that leaves it out is the source of the latest line that gave an arc.
-/

namespace LexicalTransducer

abbrev StateSet := Std.ExtTreeSet Nat

/-- The arc as it is kept by a net that is read this way round. -/
def Orientation.orient : Orientation → Arc → Arc
  | .normal, a => a
  | .invert, a => a.inverted

/-- What has been read of a states section. -/
structure StatesSection where
  arcs : Std.ExtTreeSet Arc := ∅
  mentioned : StateSet := ∅
  accepting : StateSet := ∅
  /-- The source of the latest arc. -/
  lastSource : Option Nat := none
deriving DecidableEq

namespace StatesSection

/-- The arc between these states with these label codes. -/
def arc (symbols : SymbolTable.Builder) (source : Nat) (upper lower target : Int) : Except NetFault Arc := do
  let target ← NetField.state target
  let upper ← symbols.resolve upper
  let lower ← symbols.resolve lower
  return { source, upper, lower, target }

def addArc (s : StatesSection) (orientation : Orientation) (a : Arc) : StatesSection :=
  { s with
    arcs := s.arcs.insert (orientation.orient a)
    mentioned := s.mentioned.insert a.target
    lastSource := some a.source }

/-- Record a state that is spelled out as a source. -/
def addSource (s : StatesSection) (source : Nat) (final : Bool) : StatesSection :=
  { s with
    mentioned := s.mentioned.insert source
    accepting := if final then s.accepting.insert source else s.accepting }

/-- Read one more line. -/
def add (orientation : Orientation) (symbols : SymbolTable.Builder) (s : StatesSection) :
    StateLine → Except NetFault StatesSection
  | .sentinel => .ok s
  | .explicit source upper lower target final => do
    let source ← NetField.state source
    let s := s.addSource source final
    if upper < 0 ∨ lower < 0 ∨ target < 0 then
      return s
    else
      return s.addArc orientation (← arc symbols source upper lower target)
  | .implied upper lower target =>
    match s.lastSource with
    | none => .error .noImpliedState
    | some source => do
      return s.addArc orientation (← arc symbols source upper lower target)

end StatesSection

end LexicalTransducer
