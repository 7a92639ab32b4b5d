import Kaleidoscope.Main
import Kaleidoscope.Token.Listing
import Kaleidoscope.Number.Shortest
import Kaleidoscope.Proofs.Machine
import Kaleidoscope.Proofs.Grouping
import Kaleidoscope.Proofs.Chain
import Kaleidoscope.Proofs.Grammar.Basic
import Kaleidoscope.Proofs.Grammar.Reading
import Kaleidoscope.Proofs.Grammar.Written
import Kaleidoscope.Proofs.Grammar.Forms
import Kaleidoscope.Proofs.Grammar.Program
import Kaleidoscope.Proofs.Number.Rounding
import Kaleidoscope.Proofs.Number.ReadBack
import Kaleidoscope.Proofs.Classes
import Kaleidoscope.Proofs.Cutting
import Kaleidoscope.Proofs.Spelling
import Kaleidoscope.Proofs.Tape
import Kaleidoscope.Proofs.Division
import Kaleidoscope.Proofs.Joining
import Kaleidoscope.Proofs.Lexing
import Kaleidoscope.Proofs.Grammar.Printed
import Kaleidoscope.Proofs.Grammar.Parsed
import Kaleidoscope.Proofs.Grammar.Reparsing
import Kaleidoscope.Proofs.FormMachine
import Kaleidoscope.Proofs.Relabeling
import Kaleidoscope.Proofs.Accounting
import Kaleidoscope.Proofs.Runs
import Kaleidoscope.Proofs.Separation
import Kaleidoscope.Proofs.Utf8.Encoding
import Kaleidoscope.Proofs.Utf8.Decoding
import Kaleidoscope.Proofs.Lines
import Kaleidoscope.Proofs.FirstError
import Kaleidoscope.Proofs.Operations
import Kaleidoscope.Proofs.Pulling
import Kaleidoscope.Proofs.Locality
import Kaleidoscope.Proofs.Reports
import Kaleidoscope.Proofs.Readings
import Kaleidoscope.Proofs.Limits
import Kaleidoscope.Proofs.Grammar.Paths
import Kaleidoscope.Proofs.Levels
import Kaleidoscope.Proofs.Grammar.Merging
import Kaleidoscope.Proofs.Grammar.Viable
import Kaleidoscope.Proofs.Refusals
import Kaleidoscope.Proofs.Endings
import Kaleidoscope.Proofs.Places
import Kaleidoscope.Proofs.Layout
import Kaleidoscope.Proofs.Finality
import Kaleidoscope.Proofs.Trees
import Kaleidoscope.Proofs.Registration
import Kaleidoscope.Proofs.Likeness
import Kaleidoscope.Proofs.Descent.Basic
import Kaleidoscope.Proofs.Descent.Machine
import Kaleidoscope.Proofs.Descent.Sessions
import Kaleidoscope.Proofs.Number.Integer
import Kaleidoscope.Proofs.Arguments
import Kaleidoscope.Proofs.OperatorValues
import Kaleidoscope.Proofs.Settings
import Kaleidoscope.Proofs.Pattern
import Kaleidoscope.Proofs.Number.Nearest
import Kaleidoscope.Proofs.Number.Decimal
import Kaleidoscope.Proofs.LineReader
import Kaleidoscope.Proofs.Descent.Calls
