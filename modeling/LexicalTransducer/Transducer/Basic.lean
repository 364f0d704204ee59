import LexicalTransducer.Net.Reader
import LexicalTransducer.Search.Items
import LexicalTransducer.Symbol.Segmentation

/-!
# Transducers

A transducer is a net made ready for lookups in both directions.  Analysis reads a surface form on the lower tape
and gives what stands on the upper one; generation goes the other way.  The results of a lookup come one at a time.
-/

namespace LexicalTransducer

/-- A net made ready for lookups. -/
structure Transducer where
  properties : Properties
  symbols : SymbolTable
  graph : Graph
  states : StateSet
  orientation : Orientation
  limits : Limits := {}
deriving DecidableEq

/-- A sequence of results, pulled one at a time. -/
structure Results (α : Type) where
  query : Query
  workspace : Workspace
  /-- What an output is shown as. -/
  render : List Nat → α

namespace Results

variable {α : Type}

def next (r : Results α) : Option (Except LookupError α) × Results α :=
  let (item, workspace) := r.query.next r.workspace
  (item.map (·.map r.render), { r with workspace })

/-- All results that are left. -/
def toList (r : Results α) : List (Except LookupError α) :=
  (r.query.items r.workspace).map (·.map r.render)

/-- All values, or the error that ends the sequence. -/
def values (r : Results α) : Except LookupError (List α) :=
  r.toList.mapM id

end Results

namespace Transducer

def ofNet (n : Net) : Transducer where
  properties := n.properties
  symbols := n.symbols
  graph := Graph.ofArcs n.arcs n.accepting
  states := n.states
  orientation := n.orientation

def ofText (text : String) (orientation : Orientation) : Except NetError Transducer :=
  (Net.ofText text orientation).map ofNet

variable (t : Transducer)

def withLimits (limits : Limits) : Transducer :=
  { t with limits }

/-- The lowest state, where every lookup begins. -/
def initial? : Option Nat :=
  t.states.min?

/-- The search for a text on one tape.  A text outside the alphabet has nowhere to begin. -/
def lookup {α : Type} (tape : Tape) (render : List Nat → α) (text : String) : Results α :=
  match t.symbols.split text with
  | .error _ =>
    let query := { graph := t.graph, symbols := t.symbols, input := #[], tape }
    { query, workspace := query.start none, render }
  | .ok ids =>
    let query := { graph := t.graph, symbols := t.symbols, input := ids.toArray, tape, limits := t.limits }
    { query, workspace := query.start t.initial?, render }

/-- The analyses of a surface form. -/
def analyze (surface : String) : Results (List String) :=
  t.lookup .lower t.symbols.analysis surface

/-- The surface forms of an analysis. -/
def generate (analysis : String) : Results String :=
  t.lookup .upper t.symbols.form analysis

/-- The analyses of each input, in the order of the inputs, or the first error. -/
def analyzeAll (inputs : List String) : Except LookupError (List (List (List String))) :=
  inputs.mapM fun input => (t.analyze input).values

/-- The surface forms of each input, in the order of the inputs, or the first error. -/
def generateAll (inputs : List String) : Except LookupError (List (List String)) :=
  inputs.mapM fun input => (t.generate input).values

end Transducer

inductive Direction
  | analyze
  | generate
deriving DecidableEq, Repr

/-- The results of each input as texts.  The parts of an analysis are written one behind the other. -/
def Transducer.lookupAll (t : Transducer) (direction : Direction) (inputs : List String) :
    Except LookupError (List (List String)) :=
  match direction with
  | .analyze => (t.analyzeAll inputs).map (·.map (·.map String.join))
  | .generate => t.generateAll inputs

end LexicalTransducer
