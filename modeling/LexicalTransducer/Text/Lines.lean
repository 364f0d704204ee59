/-!
# Lines and blanks

A line ends at a line feed, and one carriage return right before that line feed belongs to the ending.  A text
that ends in a line feed has no empty line behind it; a last line without one is kept as it stands.

A character is blank when it has the Unicode property `White_Space`.  Trimming and splitting into tokens go by
this class: the control characters U+001C to U+001F, the zero-width space and the byte order mark are not in it.
-/

namespace LexicalTransducer.Text

/-! ### Lines -/

def dropReturn (cs : List Char) : List Char :=
  if cs.getLast? = some '\r' then cs.dropLast else cs

/-- The lines of a text, without their endings: every piece in front of a line feed, and what stands behind the
last one if that is anything. -/
def lines (text : String) : List String :=
  let pieces := text.toList.splitOn '\n'
  (pieces.dropLast.map dropReturn ++ pieces.getLast?.toList.filter (!·.isEmpty)).map String.ofList

/-! ### Blanks -/

/-- The characters with the Unicode property `White_Space`. -/
def isBlank (c : Char) : Bool :=
  let n := c.toNat
  (0x09 ≤ n && n ≤ 0x0D) || n == 0x20 || n == 0x85 || n == 0xA0 || n == 0x1680 ||
    (0x2000 ≤ n && n ≤ 0x200A) || n == 0x2028 || n == 0x2029 || n == 0x202F || n == 0x205F ||
    n == 0x3000

def trimLeft (cs : List Char) : List Char :=
  cs.dropWhile isBlank

def trim (cs : List Char) : List Char :=
  ((trimLeft cs).reverse.dropWhile isBlank).reverse

def isBlankLine (line : String) : Bool :=
  line.toList.all isBlank

/-- The maximal runs of characters that are not blank, in order. -/
def tokens (line : String) : List String :=
  ((line.toList.splitOnP isBlank).filter (!·.isEmpty)).map String.ofList

end LexicalTransducer.Text
