import LexicalTransducer.Text.Lines
import LexicalTransducer.Text.Quoted

/-!
# Printed lookups

Each result is a line with the input, a tab and the result.  An input without results has one line with a marker,
and a blank line follows the lines of each input.

The lines of a printed lookup are read in groups: a group ends at a blank line, and where the input column changes.
There has to be one group for each input.
-/

namespace LexicalTransducer.Report

/-! ### Printing -/

/-- What stands for the results of an input that has none. -/
def noResult : String := "+?"

def row (input result : String) : String :=
  input ++ "\t" ++ result ++ "\n"

/-- The lines of one input, and the blank line behind them. -/
def printGroup (input : String) (results : List String) : String :=
  let rows := if results.isEmpty then [row input noResult] else results.map (row input)
  String.join rows ++ "\n"

def print (inputs : List String) (groups : List (List String)) : String :=
  String.join ((inputs.zip groups).map fun (input, results) => printGroup input results)

/-! ### Reading -/

inductive ReportError
  /-- A line without a tab. -/
  | noResultColumn (line : String)
  | groupCount (expected found : Nat)
deriving DecidableEq, Repr

def ReportError.message : ReportError → String
  | noResultColumn line =>
    "external lookup failed: line " ++ Text.quote line ++ " has no result column"
  | groupCount expected found =>
    s!"external lookup failed: expected {expected} result groups, got {found}"

/-- Whether the marker for "no result" stands anywhere in a text. -/
def holdsMarker : List Char → Bool
  | [] => false
  | c :: cs => noResult.toList.isPrefixOf (c :: cs) || holdsMarker cs

/-- A result as it is reported: empty if it holds the marker. -/
def reported (result : List Char) : String :=
  if holdsMarker result then "" else String.ofList result

def readRow (line : String) : Except ReportError (String × String) :=
  match line.toList.splitOn '\t' with
  | input :: result :: _ => .ok (String.ofList input, reported result)
  | _ => .error (.noResultColumn line)

/-- The results of the groups that have ended, and the group that is still open: its input and its results. -/
structure RowGroups where
  ended : List (List String) := []
  opened : Option (String × List String) := none
deriving DecidableEq, Repr

namespace RowGroups

/-- End the open group, if there is one. -/
def close (g : RowGroups) : RowGroups :=
  match g.opened with
  | some (_, results) => { ended := g.ended ++ [results] }
  | none => g

/-- A row joins the open group if that has the same input.  Else it ends this group and opens one. -/
def addRow (g : RowGroups) (input result : String) : RowGroups :=
  match g.opened with
  | some (seen, results) =>
    if seen = input then { g with opened := some (seen, results ++ [result]) }
    else { g.close with opened := some (input, [result]) }
  | none => { g with opened := some (input, [result]) }

/-- A blank line ends the open group, and every other line is a row. -/
def addLine (g : RowGroups) (line : String) : Except ReportError RowGroups :=
  if Text.isBlankLine line then .ok g.close
  else do
    let (input, result) ← readRow line
    return g.addRow input result

/-- The results of all groups, when the lines that are left have been gone through. -/
def collect (g : RowGroups) : List String → Except ReportError (List (List String))
  | [] => .ok g.close.ended
  | line :: lines => do
    let g ← g.addLine line
    g.collect lines

end RowGroups

/-- Read a printed lookup: the results of each input, in the order of the inputs. -/
def read (inputs : List String) (text : String) : Except ReportError (List (List String)) := do
  let groups ← RowGroups.collect {} (Text.lines text)
  if groups.length = inputs.length then return groups
  else throw (.groupCount inputs.length groups.length)

end LexicalTransducer.Report
