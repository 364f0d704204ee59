import LexicalTransducer.Text.Utf8
import LexicalTransducer.Transducer.Basic

/-!
# Transducers in files

A file holds the text of a net as UTF-8, either plain or packed into a gzip member.  What unpacks members is given
from outside.
-/

namespace LexicalTransducer

/-- What unpacks gzip members: it gives the content of the first member of some bytes, or says what is wrong with it. -/
abbrev Gunzip := ByteArray → Except String ByteArray

inductive LoadError
  | unreadable (reason : String)
  | notUtf8 (fault : Utf8.Fault)
  /-- The bytes begin like a gzip member, but cannot be unpacked. -/
  | badGzip (reason : String)
  /-- What has been unpacked is no UTF-8. -/
  | badContent
  | badNet (error : NetError)
deriving DecidableEq, Repr

def LoadError.message : LoadError → String
  | unreadable reason => "failed to read transducer: " ++ reason
  | notUtf8 fault => "failed to read transducer: " ++ fault.message
  | badGzip reason => "failed to read transducer: " ++ reason
  | badContent => "failed to read transducer: stream did not contain valid UTF-8"
  | badNet error => "failed to parse transducer: " ++ error.message

/-- Whether bytes begin as a gzip member does. -/
def isGzip (bytes : ByteArray) : Bool :=
  bytes[0]? == some 0x1f && bytes[1]? == some 0x8b

def textOfFile (gunzip : Gunzip) (bytes : ByteArray) : Except LoadError String :=
  if isGzip bytes then
    match gunzip bytes with
    | .error reason => .error (.badGzip reason)
    | .ok content =>
      match String.fromUTF8? content with
      | some text => .ok text
      | none => .error .badContent
  else
    match Utf8.decode bytes with
    | .ok text => .ok text
    | .error fault => .error (.notUtf8 fault)

def Transducer.ofFile (gunzip : Gunzip) (bytes : ByteArray) (orientation : Orientation) :
    Except LoadError Transducer := do
  let text ← textOfFile gunzip bytes
  (Transducer.ofText text orientation).mapError .badNet

end LexicalTransducer
