import LexicalTransducer.Net.Fault
import LexicalTransducer.Text.Lines
import LexicalTransducer.Text.Decimal

/-!
# Integer fields

Numbers in a net are 64-bit decimals between blanks.
-/

namespace LexicalTransducer.NetField

def integer (token : String) : Except NetFault Int :=
  match Text.int64? token with
  | some n => .ok n
  | none => .error (.invalidInteger token)

/-- Read all fields, up to the first that is no number. -/
def integers : List String → Except NetFault (List Int)
  | [] => .ok []
  | token :: tokens => do
    let n ← integer token
    let ns ← integers tokens
    return n :: ns

/-- A state number has to be a 32-bit word. -/
def state (n : Int) : Except NetFault Nat :=
  match Text.word32? n with
  | some q => .ok q
  | none => .error (.stateRange n)

end LexicalTransducer.NetField
