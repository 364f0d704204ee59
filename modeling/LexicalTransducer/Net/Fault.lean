import LexicalTransducer.Net.Section
import LexicalTransducer.Text.Quoted

/-!
# Faults of a serialized net

A fault is what is wrong with one line; an error is a fault with the number of its line, or the end of the text
inside an open section.
-/

namespace LexicalTransducer

inductive NetFault
  | unexpectedSection (expected found : Section)
  | unsupportedVersion (found : String)
  | contentBeforeHeader
  | unexpectedContent (inside : Section)
  | secondNet
  | contentAfterEnd
  | propsLineCount
  /-- The line of properties breaks off behind this many numbers. -/
  | missingProperty (found : Nat)
  | invalidInteger (token : String)
  | fieldCount (count : Nat)
  | noImpliedState
  /-- A state number that is not a 32-bit word. -/
  | stateRange (state : Int)
  | duplicateSymbol (code : Int)
  | unknownSymbol (code : Int)
  | missingText (code : Int)
  | reservedSymbol (text : String)
  | invalidFlag (text : String)
deriving DecidableEq, Repr

def propertyCount : Nat := 12

/-- The header line of a section, as messages show it. -/
def Section.header (s : Section) : String :=
  "##" ++ s.name ++ "##"

def NetFault.message : NetFault → String
  | unexpectedSection expected found =>
    "expected section " ++ expected.header ++ " but found " ++ found.header
  | unsupportedVersion found => "unsupported net header ##" ++ found ++ "##"
  | contentBeforeHeader => "content before the " ++ Section.net.header ++ " header"
  | unexpectedContent inside => "section " ++ inside.header ++ " takes no content"
  | secondNet => "a second transducer starts after ##end##; only one net per input is supported"
  | contentAfterEnd => "content after ##end##"
  | propsLineCount => "##props## must contain exactly one line"
  | missingProperty found =>
    s!"malformed props line: expected {propertyCount} numeric fields, found {found}"
  | invalidInteger token => Text.quote token ++ " is not an integer"
  | fieldCount count => s!"state lines have 2 to 5 fields, found {count}"
  | noImpliedState => "arc omits its source state but no state has been defined yet"
  | stateRange state => s!"negative state id {state}"
  | duplicateSymbol code => s!"sigma code {code} is defined twice"
  | unknownSymbol code => s!"arc references undefined sigma code {code}"
  | missingText code => s!"sigma code {code} has no symbol text"
  | reservedSymbol text => "reserved symbol " ++ Text.quote text ++ " is not supported"
  | invalidFlag text => "invalid flag diacritic " ++ Text.quote text

inductive NetError
  /-- A fault of the line with this number, counted from one. -/
  | atLine (line : Nat) (fault : NetFault)
  /-- The text ends inside this section. -/
  | truncated (inside : Section)
deriving DecidableEq, Repr

def NetError.message : NetError → String
  | atLine line fault => s!"line {line}: " ++ fault.message
  | truncated inside => "input ended inside " ++ inside.header ++ " without an ##end## line"

end LexicalTransducer
