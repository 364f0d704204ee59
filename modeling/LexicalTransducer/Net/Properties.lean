import LexicalTransducer.Net.Field

/-!
# The line of properties

Twelve numbers and an optional name.  They inform and are never consulted by a lookup.
-/

namespace LexicalTransducer

structure Properties where
  arity : Int
  arcCount : Int
  stateCount : Int
  lineCount : Int
  finalCount : Int
  /-- `-1` for a cyclic net. -/
  pathCount : Int
  isDeterministic : Option Bool
  isPruned : Option Bool
  isMinimized : Option Bool
  isEpsilonFree : Option Bool
  isLoopFree : Option Bool
  extras : Int
  name : Option String
deriving DecidableEq, Repr

namespace Properties

/-- Zero is no, one is yes, and any other number leaves the question open. -/
def answer (n : Int) : Option Bool :=
  if n = 0 then some false else if n = 1 then some true else none

/-- The first `n` numbers of a line and the tokens behind them; `found` of them have been read before. -/
def integers : Nat → Nat → List String → Except NetFault (List Int × List String)
  | 0, _, tokens => .ok ([], tokens)
  | _ + 1, found, [] => .error (.missingProperty found)
  | n + 1, found, token :: tokens => do
    let k ← NetField.integer token
    let (ks, rest) ← integers n (found + 1) tokens
    return (k :: ks, rest)

/-- Read the line of properties.  The tokens behind the numbers are the name. -/
def ofLine (line : String) : Except NetFault Properties := do
  let (numbers, rest) ← integers propertyCount 0 (Text.tokens line)
  let field (i : Nat) : Int := numbers.getD i 0
  return {
    arity := field 0
    arcCount := field 1
    stateCount := field 2
    lineCount := field 3
    finalCount := field 4
    pathCount := field 5
    isDeterministic := answer (field 6)
    isPruned := answer (field 7)
    isMinimized := answer (field 8)
    isEpsilonFree := answer (field 9)
    isLoopFree := answer (field 10)
    extras := field 11
    name := if rest.isEmpty then none else some (" ".intercalate rest)
  }

end Properties

end LexicalTransducer
