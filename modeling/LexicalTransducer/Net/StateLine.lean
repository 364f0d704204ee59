import LexicalTransducer.Net.Field

/-!
# Lines of the states section

| fields | layout                          |
|--------|---------------------------------|
| 5      | source upper lower target final |
| 4      | source label target final       |
| 3      | upper lower target              |
| 2      | label target                    |

A line of two or three fields leaves its source out.  Five times `-1` ends the section.  The numbers stay signed
here, for a negative label or target on a line with a source says that there is no arc.
-/

namespace LexicalTransducer

/-- What a line of the states section says. -/
inductive StateLine
  /-- No more arcs. -/
  | sentinel
  | explicit (source upper lower target : Int) (final : Bool)
  | implied (upper lower target : Int)
deriving DecidableEq, Repr

namespace StateLine

def ofFields : List Int → Except NetFault StateLine
  | [-1, -1, -1, -1, -1] => .ok .sentinel
  | [source, upper, lower, target, final] => .ok (.explicit source upper lower target (final != 0))
  | [source, label, target, final] => .ok (.explicit source label label target (final != 0))
  | [upper, lower, target] => .ok (.implied upper lower target)
  | [label, target] => .ok (.implied label label target)
  | fields => .error (.fieldCount fields.length)

/-- Read a line of the states section.  The number of its fields is looked at before the fields are. -/
def ofLine (line : String) : Except NetFault StateLine :=
  let tokens := Text.tokens line
  if 2 ≤ tokens.length ∧ tokens.length ≤ 5 then
    (NetField.integers tokens).bind ofFields
  else
    .error (.fieldCount tokens.length)

end StateLine

end LexicalTransducer
