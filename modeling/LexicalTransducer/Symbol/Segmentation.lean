import LexicalTransducer.Symbol.Table

/-!
# From texts to label numbers and back

A text is split from the left, each time at the longest text of the table that the rest begins with.  So a tag
wins over the graphemes it is made of.  Where no text of the table fits, the whole input is outside the alphabet.

An output is a list of label numbers.  As an analysis it is a list of parts, a part for each tag and for each run of
characters between tags; as a form it is one text.  Labels without a text of their own add nothing to either and
do not end a run.
-/

namespace LexicalTransducer

/-- An input with a place where no symbol fits.  The position counts UTF-8 bytes. -/
structure OutOfAlphabet where
  input : String
  position : Nat
deriving DecidableEq, Repr

def OutOfAlphabet.message (e : OutOfAlphabet) : String :=
  "cannot split " ++ Text.quote e.input ++
    s!" into alphabet symbols (stuck at byte {e.position})"

namespace SymbolTable

/-! ### Inputs -/

/-- The length of the longest text, in characters. -/
def longestText (t : SymbolTable) : Nat :=
  (t.textEntries.map fun e => e.1.length).foldr max 0

/-- The number and the length of the longest text of the table, of at most `n` characters, with which `cs`
begins. -/
def longestMatch? (t : SymbolTable) (cs : List Char) : Nat → Option (Nat × Nat)
  | 0 => none
  | n + 1 =>
    match t.code? (String.ofList (cs.take (n + 1))) with
    | some id => some (id, n + 1)
    | none => t.longestMatch? cs n

/-- Split the rest of an input, from the byte at `position` on, into texts of at most `n` characters. -/
def splitFrom (t : SymbolTable) (n : Nat) (position : Nat) : List Char → Except Nat (List Nat)
  | [] => .ok []
  | c :: cs =>
    match t.longestMatch? (c :: cs) (min n (cs.length + 1)) with
    | none => .error position
    | some (id, k) =>
      let used := (String.ofList ((c :: cs).take k)).utf8ByteSize
      (t.splitFrom n (position + used) (cs.drop (k - 1))).map (id :: ·)
termination_by cs => cs.length
decreasing_by simp only [List.length_drop, List.length_cons]; omega

def split (t : SymbolTable) (text : String) : Except OutOfAlphabet (List Nat) :=
  match t.splitFrom t.longestText 0 text.toList with
  | .ok ids => .ok ids
  | .error position => .error { input := text, position }

def splitSymbols (t : SymbolTable) (text : String) : Except OutOfAlphabet (List Symbol) :=
  (t.split text).map fun ids => ids.filterMap t.get?

/-! ### Outputs -/

/-- The symbols of an output that have a text of their own. -/
def ordinary (t : SymbolTable) (output : List Nat) : List Symbol :=
  (output.filterMap t.get?).filter (·.isOrdinary)

/-- The part that a run of characters is, unless there are none. -/
def endRun (run : List Char) : List String :=
  if run.isEmpty then [] else [String.ofList run]

/-- The parts of what is left of an output when the run that is still open has these characters. -/
def partsBehind (t : SymbolTable) (run : List Char) : List Nat → List String
  | [] => endRun run
  | id :: output =>
    match t.get? id with
    | some (.grapheme c) => t.partsBehind (run ++ [c]) output
    | some (.multichar tag) => endRun run ++ tag :: t.partsBehind [] output
    | _ => t.partsBehind run output

/-- An output as an analysis: neighbouring characters stand together, each tag stands alone. -/
def analysis (t : SymbolTable) (output : List Nat) : List String :=
  t.partsBehind [] output

end SymbolTable

def writtenForm (symbols : List Symbol) : String :=
  String.join (symbols.map (·.surface))

def SymbolTable.form (t : SymbolTable) (output : List Nat) : String :=
  writtenForm (t.ordinary output)

end LexicalTransducer
