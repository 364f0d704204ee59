import LexicalTransducer.Command.Program
import LexicalTransducer.Gzip.Member

/-!
# The lookup command

The outer layer of the program: it reads files, the input and the environment, and writes what a run leaves behind.
-/

namespace LexicalTransducer.Command

/-- The system's words for a fault.  Its number may come with the sign turned round. -/
def systemText (code : UInt32) (details : String) : String :=
  let number := min code.toNat (0x100000000 - code.toNat)
  s!"{details.capitalize} (os error {number})"

/-- What to say of a file that cannot be read. -/
def fileFault : IO.Error → String
  | .noFileOrDirectory _ code details | .permissionDenied _ code details
  | .inappropriateType _ code details => systemText code details
  | e => toString e

def readFile (path : String) : IO (Except String ByteArray) := do
  try
    return .ok (← IO.FS.readBinFile path)
  catch e =>
    return .error (fileFault e)

def readInput : IO ByteArray := do
  (← IO.getStdin).readBinToEnd

def runInSystem (arguments : List String) : IO UInt32 := do
  let outcome ← run Gzip.unpack readFile readInput (← IO.getEnv pathVariable) arguments
  IO.print outcome.output
  for line in outcome.errors do
    IO.eprintln line
  return outcome.exitCode.toUInt32

end LexicalTransducer.Command

def main (arguments : List String) : IO UInt32 :=
  LexicalTransducer.Command.runInSystem arguments
