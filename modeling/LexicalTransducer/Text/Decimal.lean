/-!
# Decimal integers in a text

A number is a run of ASCII digits behind at most one sign.  The value has to lie in the range of a 64-bit word:
signed for the fields of a net, unsigned for limits, where a minus sign is no part of a number.
-/

namespace LexicalTransducer.Text

/-- The value of a non-empty run of ASCII digits. -/
def digits? (cs : List Char) : Option Nat :=
  if cs.isEmpty || !cs.all Char.isDigit then none
  else some (cs.foldl (fun n c => 10 * n + (c.toNat - '0'.toNat)) 0)

/-- The value of a run of digits behind at most one sign. -/
def signed? : List Char → Option Int
  | '-' :: cs => (digits? cs).map fun n => -(n : Int)
  | '+' :: cs => (digits? cs).map fun n => (n : Int)
  | cs => (digits? cs).map fun n => (n : Int)

def wordCount64 : Nat := 0x10000000000000000

/-- How many values a word of 32 bits has. -/
def wordCount32 : Nat := 0x100000000

/-- The least number that is too large for a signed word of 64 bits. -/
def signedLimit64 : Int := 0x8000000000000000

def int64? (s : String) : Option Int :=
  (signed? s.toList).filter fun n => decide (-signedLimit64 ≤ n ∧ n < signedLimit64)

/-- Read an unsigned decimal, behind at most one plus sign, in the range of 64 bits. -/
def nat64? (s : String) : Option Nat :=
  let digits := match s.toList with
    | '+' :: cs => cs
    | cs => cs
  (digits? digits).filter fun n => decide (n < wordCount64)

/-- A number as a 32-bit word. -/
def word32? (n : Int) : Option Nat :=
  if 0 ≤ n ∧ n < wordCount32 then some n.toNat else none

end LexicalTransducer.Text
