import LexicalTransducer.Net.Basic
import LexicalTransducer.Text.Lines

/-!
# Reading a net

A net is read line by line.  A header line opens the section that is due, a blank line is skipped, and the open
section decides what any other line means.  The first fault ends the reading; the text has to hold exactly one
net, closed by `##end##`.
-/

namespace LexicalTransducer

/-- A line of the sigma section: a code, one separating blank, and a text.  Further blanks before the text are
dropped, unless the text is nothing but blanks. -/
def sigmaLine (line : String) : Except NetFault (Int × String) := do
  let cs := line.toList
  let code ← NetField.integer (String.ofList (cs.takeWhile (!Text.isBlank ·)))
  let text := (cs.dropWhile (!Text.isBlank ·)).drop 1
  return (code, String.ofList (if text.all Text.isBlank then text else Text.trimLeft text))

namespace Net

/-- How far the reading has come, with what has been read. -/
inductive Progress
  | start
  | header
  | props (read : Option Properties)
  | sigma (properties : Properties) (symbols : SymbolTable.Builder)
  | states (properties : Properties) (symbols : SymbolTable.Builder) (states : StatesSection)
  | closed (properties : Properties) (symbols : SymbolTable.Builder) (states : StatesSection)
deriving DecidableEq

namespace Progress

/-- The section that has been opened last. -/
def opened? : Progress → Option Section
  | start => none
  | header => some .net
  | props _ => some .props
  | sigma .. => some .sigma
  | states .. => some .states
  | closed .. => some .closing

/-- The only section that may be opened next. -/
def due? (p : Progress) : Option Section :=
  match p.opened? with
  | none => some .net
  | some s => s.next?

/-- The fault of a header line that opens another section than the one that is due. -/
def misplaced (p : Progress) (found : Section) : NetFault :=
  match p.due?, found with
  | none, .net => .secondNet
  | none, _ => .contentAfterEnd
  | some .states, .props | some .closing, .props => .secondNet
  | some _, .net => .secondNet
  | some due, found => .unexpectedSection due found

def enter (p : Progress) (opened : Section) : Except NetFault Progress :=
  match p, opened with
  | start, .net => .ok header
  | header, .props => .ok (props none)
  | props none, .sigma => .error .propsLineCount
  | props (some ps), .sigma => .ok (sigma ps {})
  | sigma ps b, .states => .ok (states ps b {})
  | states ps b s, .closing => .ok (closed ps b s)
  | p, found => .error (p.misplaced found)

def content (orientation : Orientation) (p : Progress) (line : String) : Except NetFault Progress :=
  match p with
  | start => .error .contentBeforeHeader
  | header => .error (.unexpectedContent .net)
  | props none => do return props (some (← Properties.ofLine line))
  | props (some _) => .error .propsLineCount
  | sigma ps b => do
    let (code, text) ← sigmaLine line
    match b.define code text with
    | (.ok (), b) => return sigma ps b
    | (.error e, _) => throw e
  | states ps b s => do
    let l ← StateLine.ofLine line
    return states ps b (← s.add orientation b l)
  | closed .. => .error .contentAfterEnd

def line (orientation : Orientation) (p : Progress) (line : String) : Except NetFault Progress :=
  match LineKind.ofLine line with
  | .header opened => p.enter opened
  | .foreignHeader name => .error (.unsupportedVersion name)
  | .content => if Text.isBlankLine line then .ok p else p.content orientation line

/-- Read lines, of which the first has the number `n`. -/
def lines (orientation : Orientation) (p : Progress) (n : Nat) : List String → Except NetError Progress
  | [] => .ok p
  | l :: ls =>
    match p.line orientation l with
    | .error e => .error (.atLine n e)
    | .ok p => p.lines orientation (n + 1) ls

/-- What has been read when the text ends. -/
def finish (orientation : Orientation) : Progress → Except NetError Net
  | start | header => .error (.truncated .net)
  | props _ => .error (.truncated .props)
  | sigma .. => .error (.truncated .sigma)
  | states .. => .error (.truncated .states)
  | closed ps b s => .ok (ofSections orientation ps b s)

end Progress

def ofText (text : String) (orientation : Orientation) : Except NetError Net := do
  let p ← Progress.start.lines orientation 1 (Text.lines text)
  p.finish orientation

end Net

end LexicalTransducer
