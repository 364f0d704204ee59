import LexicalTransducer.Net.Properties
import LexicalTransducer.Net.States

/-!
# Nets

A net is what one serialized transducer holds.  Its containers are canonical, so nets with the same contents are
equal.
-/

namespace LexicalTransducer

structure Net where
  properties : Properties
  symbols : SymbolTable
  /-- The arcs, each once and in ascending order; inverted already if the net was read so. -/
  arcs : List Arc
  /-- The states that do not accept. -/
  intermediate : StateSet
  accepting : StateSet
  orientation : Orientation
deriving DecidableEq

namespace Net

def states (n : Net) : StateSet :=
  n.intermediate ∪ n.accepting

def ofSections (orientation : Orientation) (properties : Properties) (symbols : SymbolTable.Builder)
    (states : StatesSection) : Net where
  properties
  symbols := symbols.finish
  arcs := states.arcs.toList
  intermediate := states.mentioned \ states.accepting
  accepting := states.accepting
  orientation

end Net

end LexicalTransducer
