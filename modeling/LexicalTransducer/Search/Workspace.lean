import LexicalTransducer.Flag.Basic

/-!
# The workspace of a search

A search keeps one frame per state of the path it is on.  The frames share one output buffer and one flat array of
flag environments, a row for each flag on the path.  A frame remembers how far both had grown when it was entered,
so going back to it means to cut the output and to lower the row index; rows above the index are stale and are
written over before they are seen again.
-/

namespace LexicalTransducer

/-- One state of the current path. -/
structure Frame where
  state : Nat
  /-- The index of the arc to try next. -/
  nextArc : Nat := 0
  /-- How many input symbols the path up to here has consumed. -/
  consumed : Nat := 0
  /-- The length of the output on entry. -/
  outputLength : Nat := 0
  /-- The row of the environment on entry. -/
  flagDepth : Nat := 0
  /-- Whether acceptance has been looked at. -/
  visited : Bool := false
deriving DecidableEq, Repr

/-- What a search has in its hands. -/
structure Workspace where
  /-- The frames of the current path, the last state first. -/
  frames : List Frame
  /-- The labels that the current path has emitted. -/
  output : Array Nat
  /-- The rows of environments, one behind the other. -/
  cells : Array Nat
  /-- The index of the current row. -/
  flagDepth : Nat
  featureCount : Nat
deriving DecidableEq, Repr

namespace Workspace

/-- A workspace for environments of this width, with one row that sets nothing. -/
def empty (featureCount : Nat) : Workspace where
  frames := []
  output := #[]
  cells := Array.replicate featureCount unset
  flagDepth := 0
  featureCount

/-- Forget everything and begin at a state, if there is one. -/
def reset (w : Workspace) (initial : Option Nat) : Workspace :=
  { w with
    frames := initial.toList.map fun q => { state := q }
    output := #[]
    cells := Array.replicate w.featureCount unset
    flagDepth := 0 }

def push (w : Workspace) (f : Frame) : Workspace :=
  { w with frames := f :: w.frames }

def emit (w : Workspace) (label : Nat) : Workspace :=
  { w with output := w.output.push label }

/-- The index of the first cell of the current row. -/
def rowStart (w : Workspace) : Nat :=
  w.flagDepth * w.featureCount

def currentFlags (w : Workspace) : Array Nat :=
  w.cells.extract w.rowStart (w.rowStart + w.featureCount)

/-- Set a feature in the current environment.  A feature outside the row is not written. -/
def setFlag (w : Workspace) (feature value : Nat) : Workspace :=
  if feature < w.featureCount then
    { w with cells := w.cells.setIfInBounds (w.rowStart + feature) value }
  else w

def growTo (cells : Array Nat) (n : Nat) : Array Nat :=
  cells ++ Array.replicate (n - cells.size) unset

/-- Copy `n` cells from the index `source` on to the index `target`. -/
def copyCells (cells : Array Nat) (source target : Nat) : Nat → Array Nat
  | 0 => cells
  | n + 1 => copyCells (cells.setIfInBounds target (cells.getD source unset)) (source + 1) (target + 1) n

/-- Copy the current row forward and make the copy current.  Rows of width zero need no copies. -/
def pushFlags (w : Workspace) : Workspace :=
  if w.featureCount = 0 then w
  else
    let next := w.rowStart + w.featureCount
    -- the copy writes over what an earlier path may have left in these cells
    { w with
      cells := copyCells (growTo w.cells (next + w.featureCount)) w.rowStart next w.featureCount
      flagDepth := w.flagDepth + 1 }

def restoreFlags (w : Workspace) (depth : Nat) : Workspace :=
  { w with flagDepth := depth }

/-- Change the current environment as a flag does. -/
def applyFlag (w : Workspace) (f : Flag) : Workspace :=
  match f.assigned? with
  | some v => w.setFlag f.feature v
  | none => w

/-- Undo what has happened since a frame was entered. -/
def rewind (w : Workspace) (f : Frame) : Workspace :=
  { w with output := w.output.shrink f.outputLength }.restoreFlags f.flagDepth

end Workspace

end LexicalTransducer
