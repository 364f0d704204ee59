import LexicalTransducer.Flag.Numbering

/-!
# Symbols

A symbol is one unit of an alphabet: a single character, a tag of several characters such as `+Past`, a flag
diacritic, or one of the three sentinels for epsilon, unknown and identity.
-/

namespace LexicalTransducer

inductive Symbol
  | epsilon
  | unknown
  | identity
  /-- Exactly one character. -/
  | grapheme (char : Char)
  /-- A tag of more than one character. -/
  | multichar (text : String)
  | flag (flag : Flag)
deriving DecidableEq, Repr

inductive SymbolFault
  | empty
  /-- Between at signs, but neither a sentinel nor a flag. -/
  | reserved
  /-- A flag with a fault of its own. -/
  | invalidFlag
deriving DecidableEq, Repr

namespace Symbol

/-- The label number that stands for epsilon, declared or not. -/
def epsilonId : Nat := 0

def epsilonText : String := "@_EPSILON_SYMBOL_@"
def unknownText : String := "@_UNKNOWN_SYMBOL_@"
def identityText : String := "@_IDENTITY_SYMBOL_@"

def text : Symbol → String
  | epsilon => epsilonText
  | unknown => unknownText
  | identity => identityText
  | grapheme c => c.toString
  | multichar t => t
  | flag f => f.text

def isSentinel : Symbol → Bool
  | epsilon | unknown | identity => true
  | _ => false

def isGrapheme : Symbol → Bool
  | grapheme _ => true
  | _ => false

def isMultichar : Symbol → Bool
  | multichar _ => true
  | _ => false

def isFlag : Symbol → Bool
  | flag _ => true
  | _ => false

/-- Symbols whose text can stand in an input. -/
def isOrdinary (s : Symbol) : Bool :=
  s.isGrapheme || s.isMultichar

/-- What a symbol adds to a written form: its text if it is ordinary, else nothing. -/
def surface : Symbol → String
  | grapheme c => c.toString
  | multichar t => t
  | _ => ""

/-- Whether a text stands between at signs, which is where flags and sentinels are written. -/
def isBetweenAts (cs : List Char) : Bool :=
  cs.head? == some '@' && cs.getLast? == some '@'

/-- The symbol that a text names.  Flags take numbers for their names. -/
def ofText (names : FlagNames) (text : String) : Except SymbolFault Symbol × FlagNames :=
  if text = epsilonText then (.ok epsilon, names)
  else if text = unknownText then (.ok unknown, names)
  else if text = identityText then (.ok identity, names)
  else match text.toList with
    | [] => (.error .empty, names)
    | [c] => (.ok (grapheme c), names)
    | cs =>
      if isBetweenAts cs then
        match names.read text with
        | (.ok f, names) => (.ok (flag f), names)
        | (.error .malformed, names) | (.error .tooManyNames, names) => (.error .invalidFlag, names)
        | (.error .notAFlag, names) | (.error .unsupportedOperation, names) => (.error .reserved, names)
      else (.ok (multichar text), names)

end Symbol

end LexicalTransducer
