import SignalScript.CommandLine
import SignalScript.Cursor
import SignalScript.Fault
import SignalScript.ImportSpec
import SignalScript.Layout
import SignalScript.Lexeme
import SignalScript.Main
import SignalScript.Number.Decimal
import SignalScript.Number.Double
import SignalScript.Number.Shortest
import SignalScript.Operator
import SignalScript.Parser.Expression
import SignalScript.Parser.Form
import SignalScript.Parser.State
import SignalScript.Parser.Step
import SignalScript.Reply
import SignalScript.Report
import SignalScript.Scanner
import SignalScript.SourceLine
import SignalScript.Text.Blank
import SignalScript.Text.Cased
import SignalScript.Text.Extending
import SignalScript.Text.Lowercase
import SignalScript.Text.Pieces
import SignalScript.Text.Quoted
import SignalScript.Text.Ranges
import SignalScript.Text.Size
import SignalScript.Text.Unprintable
import SignalScript.Token
import SignalScript.Tree
import SignalScript.Proofs.Completeness
import SignalScript.Proofs.Levels
import SignalScript.Proofs.Nesting
import SignalScript.Proofs.Reading
import SignalScript.Proofs.Replies
import SignalScript.Proofs.Shape
import SignalScript.Proofs.Soundness
import SignalScript.Proofs.Spelling
import SignalScript.Proofs.Trail
import SignalScript.Proofs.Wording
import SignalScript.Proofs.Tiling
import SignalScript.Proofs.Notation
import SignalScript.Proofs.Parallel
import SignalScript.Proofs.Account
import SignalScript.Proofs.Pulling
import SignalScript.Proofs.Resemblance
import SignalScript.Proofs.Location
import SignalScript.Proofs.Extent
import SignalScript.Proofs.Leftover
import SignalScript.Proofs.Lines
import SignalScript.Proofs.Enclosure
import SignalScript.Proofs.Punctuation
import SignalScript.Proofs.Trailing
import SignalScript.Proofs.Missing
import SignalScript.Proofs.Unclosed
import SignalScript.Proofs.Closers
import SignalScript.Proofs.Unfinished
import SignalScript.Proofs.Law
import SignalScript.Proofs.Balance
import SignalScript.Proofs.Consumption
import SignalScript.Proofs.Earliest
import SignalScript.Proofs.Chains
import SignalScript.Proofs.Progress
import SignalScript.Proofs.Unreadable
import SignalScript.Proofs.Joined
import SignalScript.Proofs.Caret
import SignalScript.Proofs.Printed
import SignalScript.Proofs.Imports
import SignalScript.Proofs.Parts
import SignalScript.Proofs.Spreading
import SignalScript.Proofs.Indentation
import SignalScript.Proofs.Adjacency
import SignalScript.Proofs.Patterns
import SignalScript.Proofs.LongestMatch
import SignalScript.Proofs.Cuts
import SignalScript.Proofs.Sessions
