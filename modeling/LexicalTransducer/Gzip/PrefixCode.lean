import LexicalTransducer.Gzip.BitStream

/-!
# Canonical prefix codes

A canonical code is given by the length of each symbol's code word.  Words of one length are consecutive numbers in
the order of the symbols, and the first word of a length is the number behind the last word of the length before,
extended by a zero.  Reading a word goes through the lengths, one bit for each.

Lengths with too many words give two symbols the same word, and lengths with too few leave bits that no word begins.
A code is complete if neither is the case; a code of no word, or of one word of one bit, is trivial.
-/

namespace LexicalTransducer.Gzip

def maxCodeLength : Nat := 15

/-- How many words of that length there are. -/
def wordCount : Nat := 0x8000

/-- A canonical prefix code: how many words each length from one on has, and the symbols in the order of their
words. -/
structure PrefixCode where
  counts : List Nat
  symbols : Array Nat

namespace PrefixCode

/-- The symbols whose words have this length, in ascending order. -/
def symbolsOfLength (lengths : List Nat) (n : Nat) : List Nat :=
  (lengths.zipIdx.filter (·.1 == n)).map (·.2)

/-- How many words of the greatest length begin with a word of the code. -/
def covered (counts : List Nat) : Nat :=
  counts.foldl (fun total n => 2 * total + n) 0

/-- The code with these word lengths, zero for a symbol without a word. -/
def ofLengths (lengths : List Nat) : PrefixCode :=
  let groups := (List.range maxCodeLength).map fun n => symbolsOfLength lengths (n + 1)
  { counts := groups.map (·.length), symbols := groups.flatten.toArray }

/-- Whether the words cover everything, and no two of them the same. -/
def isComplete (code : PrefixCode) : Bool :=
  covered code.counts == wordCount

/-- Whether the code has no word, or one word of one bit. -/
def isTrivial (code : PrefixCode) : Bool :=
  code.symbols.isEmpty || code.symbols.size == 1 && code.counts.head? == some 1

/-- Read a word through the lengths that are left.  `first` is the first word of the length at hand and `index` the
place of its symbol; `word` has been read so far. -/
def readWord (symbols : Array Nat) (word first index : Nat) :
    List Nat → BitStream → Option (Nat × BitStream)
  | [], _ => none
  | count :: counts, s => do
    let (bit, s) ← s.bit?
    let word := 2 * word + bit
    if word < first + count then
      let symbol ← symbols[index + (word - first)]?
      return (symbol, s)
    else readWord symbols word (2 * (first + count)) (index + count) counts s

def read (code : PrefixCode) (s : BitStream) : Option (Nat × BitStream) :=
  readWord code.symbols 0 0 0 code.counts s

end PrefixCode

end LexicalTransducer.Gzip
