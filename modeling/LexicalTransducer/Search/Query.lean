import LexicalTransducer.Graph.Basic
import LexicalTransducer.Search.Workspace

/-!
# Depth-first search

A query asks for the outputs of all accepting paths that consume exactly the input.  The search goes depth first,
takes the arcs of a state in their order, and looks at acceptance before it takes any.  One `step` of it ends with
a result, with an error, with nothing left to do, or with the work that remains.
-/

namespace LexicalTransducer

structure Limits where
  /-- The most arcs without input that one path may have. -/
  maxDepth : Nat := 2000
deriving DecidableEq, Repr

/-- Why a search stops before its end. -/
inductive LookupError
  /-- A flag on the input tape is paired with another label. -/
  | mismatchedFlag (state : Nat) (flag : String)
  | depthLimit (limit : Nat)
deriving DecidableEq, Repr

def LookupError.message : LookupError → String
  | mismatchedFlag state flag =>
    s!"state {state}: flag diacritic {flag} on the input side is paired with a different output label"
  | depthLimit limit => s!"path exceeded the maximum traversal depth of {limit} arcs"

/-- What a lookup of many inputs says when it stops. -/
def LookupError.report (e : LookupError) : String :=
  "lookup failed: " ++ e.message

/-- One item of a sequence of results: an error is the last one. -/
abbrev Item := Except LookupError (List Nat)

/-- What to search for, and where. -/
structure Query where
  graph : Graph
  symbols : SymbolTable
  input : Array Nat
  /-- The tape that consumes the input. -/
  tape : Tape
  limits : Limits := {}

inductive StepResult
  | exhausted
  | result (output : List Nat) (rest : Workspace)
  | failed (error : LookupError)
  | moved (rest : Workspace)

namespace Query

variable (q : Query)

def accepts (f : Frame) : Bool :=
  f.consumed == q.input.size && q.graph.accepts f.state

/-- Whether a label shows in the output. -/
def isVisible (label : Nat) : Bool :=
  label != Symbol.epsilonId && (q.symbols.flag? label).isNone

/-- Go on to a state, with the output label of the arc that leads to it. -/
def enter (w : Workspace) (state label consumed : Nat) : StepResult :=
  -- each frame stands for one arc of the path to the new state; what did not consume was idle
  if q.limits.maxDepth < w.frames.length - consumed then .failed (.depthLimit q.limits.maxDepth)
  else
    let w := if q.isVisible label then w.emit label else w
    .moved (w.push { state, consumed, outputLength := w.output.size, flagDepth := w.flagDepth })

/-- Try an arc out of the state of a frame. -/
def follow (w : Workspace) (f : Frame) (a : Arc) : StepResult :=
  let (read, write) := q.tape.labels a
  if read = Symbol.epsilonId then q.enter w a.target write f.consumed
  else if q.input[f.consumed]? = some read then q.enter w a.target write (f.consumed + 1)
  else match q.symbols.flag? read with
    | none => .moved w
    | some flag =>
      if write ≠ read then .failed (.mismatchedFlag f.state flag.text)
      else if flag.test w.currentFlags then
        q.enter (w.pushFlags.applyFlag flag) a.target write f.consumed
      else .moved w

/-- Try the next arc of the top frame, or go back where there is none. -/
def advance (w : Workspace) (top : Frame) (below : List Frame) : StepResult :=
  match q.graph.arc? top.state top.nextArc with
  | none => .moved { w with frames := below }
  | some a =>
    -- what earlier arcs of the frame have left behind is undone first
    let w := { w with frames := { top with nextArc := top.nextArc + 1 } :: below }
    q.follow (w.rewind top) top a

/-- One step of the search. -/
def step (w : Workspace) : StepResult :=
  match w.frames with
  | [] => .exhausted
  | top :: below =>
    -- a state is not reported again when the search comes back to it
    let seen := { top with visited := true }
    if !top.visited && q.accepts top then
      let output := w.output.shrink top.outputLength
      .result output.toList { w with frames := seen :: below, output }
    else q.advance w seen below

end Query

end LexicalTransducer
