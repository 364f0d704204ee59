import LexicalTransducer.Main
import LexicalTransducer.Proofs.Search.Termination
import LexicalTransducer.Proofs.Search.IdleCycles
import LexicalTransducer.Proofs.Search.WithoutFlags
import LexicalTransducer.Proofs.Transducer.Renumbering
import LexicalTransducer.Proofs.Transducer.SigmaOrder
import LexicalTransducer.Proofs.Transducer.Epsilon
import LexicalTransducer.Proofs.Symbol.Alternation
import LexicalTransducer.Proofs.Symbol.Closure
import LexicalTransducer.Proofs.Report.Attribution
import LexicalTransducer.Proofs.Command.Answers
import LexicalTransducer.Proofs.Net.BlankLines
import LexicalTransducer.Proofs.Symbol.Bindings
import LexicalTransducer.Proofs.Symbol.Rejection
import LexicalTransducer.Proofs.Flag.Lossless
import LexicalTransducer.Proofs.Net.SigmaText
import LexicalTransducer.Proofs.Transducer.Parts
import LexicalTransducer.Proofs.Report.Grouping
import LexicalTransducer.Proofs.Text.Tokens
import LexicalTransducer.Proofs.Net.StateFields
import LexicalTransducer.Proofs.Command.Arguments
import LexicalTransducer.Proofs.Command.Items
import LexicalTransducer.Proofs.Command.Help
import LexicalTransducer.Proofs.Transducer.Files
import LexicalTransducer.Proofs.Search.FrameStack
import LexicalTransducer.Proofs.Flag.NumberRange
