import LexicalTransducer.Command.Options
import LexicalTransducer.Report.Basic
import LexicalTransducer.Transducer.File

/-!
# The lookup program

The program loads a transducer, looks up the words of the command line, or else those of its input, and prints the
results.  What it needs from outside comes in as two actions, of which one reads a file and the other the input, and
as what unpacks gzip members.
-/

namespace LexicalTransducer.Command

/-- What a run leaves behind. -/
structure Outcome where
  exitCode : Nat := 0
  output : String := ""
  /-- Lines for the error channel. -/
  errors : List String := []
deriving DecidableEq, Repr

def helpText : String := "\n".intercalate [
  "fst-lookup: Analyze or generate with a foma transducer.",
  "",
  "Usage: fst-lookup [OPTIONS] FST [WORD...]",
  "",
  "If WORD arguments are given, looks up each word.",
  "Otherwise reads words from stdin (one per line).",
  "FST may be omitted when " ++ pathVariable ++ " is set.",
  "",
  "Options:",
  "  -f, --fst PATH            Transducer file (gzip'd or plain foma text)",
  "  -g, --generate            Generate surface forms instead of analyzing",
  "  -i, --invert              Load with upper and lower labels swapped",
  "      --orientation NAME    normal | invert",
  "      --max-depth N         Most arcs without input on one path",
  "  -h, --help                Print this help",
  "",
  "Set RUST_LOG=debug for load and lookup diagnostics.",
  ""]

/-- The bytes between line feeds.  Behind a last line feed there is no further line. -/
def byteLines (bytes : List UInt8) : List (List UInt8) :=
  let pieces := bytes.splitOn 0x0A
  if pieces.getLast? = some [] then pieces.dropLast else pieces

/-- The words of an input, one to a line, up to the first line that is no UTF-8, with what to say of such a line. -/
def wordsOfInput (input : ByteArray) : List String × List String :=
  let decoded := (byteLines input.toList).map fun line => (Utf8.decode ⟨line.toArray⟩).toOption
  let texts := (decoded.takeWhile (·.isSome)).filterMap id
  let words := (texts.map fun text => Text.trim text.toList).filter (!·.isEmpty)
  let errors := if decoded.any (·.isNone) then
      ["error reading stdin: stream did not contain valid UTF-8"]
    else []
  (words.map String.ofList, errors)

def failure (earlier : List String) (message : String) : Outcome :=
  { exitCode := 1, errors := earlier ++ ["error: " ++ message] }

def answer (t : Transducer) (direction : Direction) (words errors : List String) : Outcome :=
  match t.lookupAll direction words with
  | .ok groups => { output := Report.print words groups, errors }
  | .error e => failure errors e.report

def load (gunzip : Gunzip) (o : Options) (path : String) (file : Except String ByteArray) : Except String Transducer :=
  let loaded : Except LoadError Transducer := match file with
    | .error reason => .error (.unreadable reason)
    | .ok bytes => Transducer.ofFile gunzip bytes o.orientation
  match loaded with
  | .ok t => .ok (t.withLimits o.limits)
  | .error e => .error (path ++ ": " ++ e.message)

def run {m : Type → Type} [Monad m] (gunzip : Gunzip) (readFile : String → m (Except String ByteArray))
    (readInput : m ByteArray) (environment : Option String) (arguments : List String) : m Outcome :=
  if wantsHelp arguments then return { output := helpText }
  else match Options.ofArguments environment arguments with
    | .error e => return failure [] e.message
    | .ok o =>
      match o.path with
      | none => return failure [] ("no transducer given; pass FST or set " ++ pathVariable)
      | some path => do
        match load gunzip o path (← readFile path) with
        | .error message => return failure [] message
        | .ok t =>
          if o.words.isEmpty then
            let (words, errors) := wordsOfInput (← readInput)
            return answer t o.direction words errors
          else return answer t o.direction o.words []

end LexicalTransducer.Command
