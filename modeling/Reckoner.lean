import Reckoner.Command
import Reckoner.Command.Arguments
import Reckoner.Command.Folder
import Reckoner.Command.Path
import Reckoner.Command.Switch
import Reckoner.Cursor
import Reckoner.Datum
import Reckoner.Datum.Reader
import Reckoner.Datum.Writer
import Reckoner.Descent
import Reckoner.Error
import Reckoner.Evaluate
import Reckoner.Fault
import Reckoner.Frontend
import Reckoner.Limits
import Reckoner.Log
import Reckoner.Main
import Reckoner.Node
import Reckoner.Node.Codec
import Reckoner.Node.Document
import Reckoner.Number.Binary64
import Reckoner.Number.Reading
import Reckoner.Number.Shortest
import Reckoner.Number.Writing
import Reckoner.Phrase
import Reckoner.Phrase.Machine
import Reckoner.Proofs.Agreement
import Reckoner.Proofs.Canonical
import Reckoner.Proofs.Command.Emission
import Reckoner.Proofs.Command.Folders
import Reckoner.Proofs.Command.Paths
import Reckoner.Proofs.Command.Programs
import Reckoner.Proofs.Command.Trees
import Reckoner.Proofs.Command.Words
import Reckoner.Proofs.Concatenation
import Reckoner.Proofs.Cycles
import Reckoner.Proofs.Datum.Numbers
import Reckoner.Proofs.Datum.Numerals
import Reckoner.Proofs.Datum.RoundTrip
import Reckoner.Proofs.Datum.Texts
import Reckoner.Proofs.Depth.Approach
import Reckoner.Proofs.Depth.Evaluation
import Reckoner.Proofs.Depth.Reading
import Reckoner.Proofs.Descent.Bookmarks
import Reckoner.Proofs.Descent.Citations
import Reckoner.Proofs.Descent.Completeness
import Reckoner.Proofs.Descent.Completion
import Reckoner.Proofs.Descent.Discipline
import Reckoner.Proofs.Descent.Earliest
import Reckoner.Proofs.Descent.Lines
import Reckoner.Proofs.Descent.Loops
import Reckoner.Proofs.Descent.Programs
import Reckoner.Proofs.Descent.Soundness
import Reckoner.Proofs.Descent.Takes
import Reckoner.Proofs.Diagnosis
import Reckoner.Proofs.Documents
import Reckoner.Proofs.Evaluation.Calls
import Reckoner.Proofs.Evaluation.Causes
import Reckoner.Proofs.Evaluation.Defects
import Reckoner.Proofs.Evaluation.Effects
import Reckoner.Proofs.Evaluation.Frames
import Reckoner.Proofs.Evaluation.Levels
import Reckoner.Proofs.Evaluation.Runs
import Reckoner.Proofs.Evaluation.Shared
import Reckoner.Proofs.Evaluation.Tasks
import Reckoner.Proofs.Evaluation.Typing
import Reckoner.Proofs.Evaluation.Visibility
import Reckoner.Proofs.Grammar
import Reckoner.Proofs.Logs
import Reckoner.Proofs.Machine.Completeness
import Reckoner.Proofs.Machine.Lines
import Reckoner.Proofs.Machine.Soundness
import Reckoner.Proofs.Machine.Viability
import Reckoner.Proofs.Mentions
import Reckoner.Proofs.Newlines
import Reckoner.Proofs.Number.Layouts
import Reckoner.Proofs.Number.Parts
import Reckoner.Proofs.Number.Rounding
import Reckoner.Proofs.Number.Shortest
import Reckoner.Proofs.Ordinary
import Reckoner.Proofs.Outcome
import Reckoner.Proofs.Printing.Formation
import Reckoner.Proofs.Printing.Layout
import Reckoner.Proofs.Printing.RoundTrip
import Reckoner.Proofs.Printing.Spacing
import Reckoner.Proofs.Scan
import Reckoner.Proofs.Scan.LineEnds
import Reckoner.Proofs.Scan.Munch
import Reckoner.Proofs.Scan.Respacing
import Reckoner.Proofs.Scan.Strays
import Reckoner.Proofs.Scope
import Reckoner.Proofs.Sessions
import Reckoner.Proofs.Sharing
import Reckoner.Proofs.Sources
import Reckoner.Proofs.Statements
import Reckoner.Proofs.Text.Lines
import Reckoner.Proofs.Text.Spellings
import Reckoner.Proofs.Tree
import Reckoner.Scope
import Reckoner.Session
import Reckoner.Store
import Reckoner.Text.Blank
import Reckoner.Text.Digit
import Reckoner.Text.Lines
import Reckoner.Text.Printable
import Reckoner.Text.Quoted
import Reckoner.Text.Spelling
import Reckoner.Text.Utf8
import Reckoner.Token
import Reckoner.Token.Scan
import Reckoner.Value
import Reckoner.Value.Arithmetic
