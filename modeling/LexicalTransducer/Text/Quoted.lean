import LexicalTransducer.Text.Invisible

/-!
# Quoted text in messages

A message shows a foreign text between double quotes.  The quote, the backslash and the usual control characters
have two-character escapes; every other character that has no visible form of its own is shown by its code point
in hexadecimal between braces.
-/

namespace LexicalTransducer.Text

def quoteChar (c : Char) : List Char :=
  match c with
  | '"' => ['\\', '"']
  | '\\' => ['\\', '\\']
  | '\n' => ['\\', 'n']
  | '\r' => ['\\', 'r']
  | '\t' => ['\\', 't']
  | '\x00' => ['\\', '0']
  | c =>
    if isInvisible c then ['\\', 'u', '\x7b'] ++ Nat.toDigits 16 c.toNat ++ ['\x7d'] else [c]

/-- A text between double quotes, as messages show it. -/
def quote (s : String) : String :=
  String.ofList ('"' :: s.toList.flatMap quoteChar ++ ['"'])

end LexicalTransducer.Text
