import LexicalTransducer.Net.Fault
import LexicalTransducer.Symbol.Basic
import LexicalTransducer.Text.Decimal

/-!
# Symbol tables

A table binds label numbers to symbols, and the texts of ordinary symbols back to numbers.  It is built one
definition at a time: a number is bound once, and a text keeps the number that was bound to it first.
-/

namespace LexicalTransducer

structure SymbolTable where
  symbols : Std.ExtTreeMap Nat Symbol := ∅
  /-- The texts of the graphemes and tags, with their numbers. -/
  codes : Std.ExtTreeMap String Nat := ∅
  /-- How many features the flags speak of. -/
  featureCount : Nat := 0
deriving DecidableEq

namespace SymbolTable

/-- The symbol with this number.  Number zero is epsilon even where it is not declared. -/
def get? (t : SymbolTable) (id : Nat) : Option Symbol :=
  match t.symbols[id]? with
  | some s => some s
  | none => if id = Symbol.epsilonId then some .epsilon else none

def flag? (t : SymbolTable) (id : Nat) : Option Flag :=
  match t.symbols[id]? with
  | some (.flag f) => some f
  | _ => none

/-- The number of the grapheme or tag with this text. -/
def code? (t : SymbolTable) (text : String) : Option Nat :=
  t.codes[text]?

def size (t : SymbolTable) : Nat :=
  t.symbols.size

/-- The bound symbols of one kind, in ascending order of their numbers. -/
def entries (t : SymbolTable) (keep : Symbol → Bool) : List (Nat × Symbol) :=
  t.symbols.toList.filter fun e => keep e.2

/-- The alphabet: all symbols but the sentinels. -/
def alphabet (t : SymbolTable) : List (Nat × Symbol) :=
  t.entries (!·.isSentinel)

def graphemes (t : SymbolTable) : List (Nat × Symbol) :=
  t.entries (·.isGrapheme)

def multichars (t : SymbolTable) : List (Nat × Symbol) :=
  t.entries (·.isMultichar)

def flags (t : SymbolTable) : List (Nat × Symbol) :=
  t.entries (·.isFlag)

/-- The texts that an input can be split into, with their numbers, in ascending order of the texts. -/
def textEntries (t : SymbolTable) : List (String × Nat) :=
  t.codes.toList

structure Builder where
  symbols : Std.ExtTreeMap Nat Symbol := ∅
  codes : Std.ExtTreeMap String Nat := ∅
  names : FlagNames := {}
deriving DecidableEq

namespace Builder

/-- What a faulty symbol text means for the line that defines it. -/
def faultOf (code : Int) (text : String) : SymbolFault → NetFault
  | .empty => .missingText code
  | .reserved => .reservedSymbol text
  | .invalidFlag => .invalidFlag text

/-- Bind a number that is still free to a symbol. -/
def bind (b : Builder) (id : Nat) (s : Symbol) : Builder :=
  { b with
    symbols := b.symbols.insert id s
    codes := if s.isOrdinary then b.codes.insertIfNew s.text id else b.codes }

/-- Bind `code` to the symbol with this text. -/
def define (b : Builder) (code : Int) (text : String) : Except NetFault Unit × Builder :=
  match Text.word32? code with
  | none => (.error (.invalidInteger (toString code)), b)
  | some id =>
    -- the code is looked at before the text, so a text for a bound code takes no names
    if id ∈ b.symbols then (.error (.duplicateSymbol code), b)
    else match Symbol.ofText b.names text with
      | (.error e, names) => (.error (faultOf code text e), { b with names })
      | (.ok s, names) => (.ok (), { b with names }.bind id s)

/-- The label number for the code of an arc: a bound one, or epsilon. -/
def resolve (b : Builder) (code : Int) : Except NetFault Nat :=
  match Text.word32? code with
  | none => .error (.unknownSymbol code)
  | some id =>
    if id = Symbol.epsilonId ∨ id ∈ b.symbols then .ok id else .error (.unknownSymbol code)

/-- The table of all that has been bound. -/
def finish (b : Builder) : SymbolTable where
  symbols := b.symbols
  codes := b.codes
  featureCount := b.names.featureCount

end Builder

end SymbolTable

end LexicalTransducer
