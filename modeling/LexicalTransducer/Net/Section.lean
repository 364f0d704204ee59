/-!
# Sections of a serialized net

A net is a sequence of five sections, each opened by a header line `##name##`.  Every other line is content, also
one between number signs whose name is not known here; only a net header of another version is an error.
-/

namespace LexicalTransducer

/-- The sections of a net, in the order in which they have to appear. -/
inductive Section
  | net
  | props
  | sigma
  | states
  | closing
deriving DecidableEq, Repr

namespace Section

def name : Section → String
  | net => "foma-net 1.0"
  | props => "props"
  | sigma => "sigma"
  | states => "states"
  | closing => "end"

/-- The section that comes behind this one. -/
def next? : Section → Option Section
  | net => some props
  | props => some sigma
  | sigma => some states
  | states => some closing
  | closing => none

def ofName? (name : String) : Option Section :=
  [net, props, sigma, states, closing].find? fun s => s.name == name

end Section

/-- What stands between two leading and two further trailing number signs. -/
def betweenMarks? : List Char → Option (List Char)
  | '#' :: '#' :: cs =>
    match cs.reverse with
    | '#' :: '#' :: rest => some rest.reverse
    | _ => none
  | _ => none

/-- How a line takes part in the division into sections. -/
inductive LineKind
  | header (opened : Section)
  | content
  /-- The header of a net in a version that is not supported. -/
  | foreignHeader (name : String)
deriving DecidableEq, Repr

def LineKind.ofLine (line : String) : LineKind :=
  match betweenMarks? line.toList with
  | none => .content
  | some cs =>
    match Section.ofName? (String.ofList cs) with
    | some s => .header s
    | none => if "foma-net".toList.isPrefixOf cs then .foreignHeader (String.ofList cs) else .content

end LexicalTransducer
