import FrappeSyntax.CommandLine
import FrappeSyntax.Dump
import FrappeSyntax.Error
import FrappeSyntax.Error.Report
import FrappeSyntax.Event
import FrappeSyntax.Expression
import FrappeSyntax.Expression.Dump
import FrappeSyntax.Expression.Outline
import FrappeSyntax.Expression.Parser
import FrappeSyntax.Fragment
import FrappeSyntax.Main
import FrappeSyntax.Outline
import FrappeSyntax.Parse
import FrappeSyntax.Parser
import FrappeSyntax.Position
import FrappeSyntax.Production
import FrappeSyntax.Program
import FrappeSyntax.Program.Dump
import FrappeSyntax.Program.Outline
import FrappeSyntax.Program.Parser
import FrappeSyntax.Proofs.Acceptance
import FrappeSyntax.Proofs.Arguments
import FrappeSyntax.Proofs.Canonical
import FrappeSyntax.Proofs.Caret
import FrappeSyntax.Proofs.Composition
import FrappeSyntax.Proofs.Consumption
import FrappeSyntax.Proofs.Depth
import FrappeSyntax.Proofs.DepthLimit
import FrappeSyntax.Proofs.Derivation
import FrappeSyntax.Proofs.DerivedTree
import FrappeSyntax.Proofs.Dispatch
import FrappeSyntax.Proofs.DumpText
import FrappeSyntax.Proofs.DumpedProgram
import FrappeSyntax.Proofs.EarliestError
import FrappeSyntax.Proofs.ErrorSite
import FrappeSyntax.Proofs.Evaluation
import FrappeSyntax.Proofs.Expectation
import FrappeSyntax.Proofs.Expression
import FrappeSyntax.Proofs.Fault
import FrappeSyntax.Proofs.Following
import FrappeSyntax.Proofs.Form
import FrappeSyntax.Proofs.FreeText
import FrappeSyntax.Proofs.Grammar
import FrappeSyntax.Proofs.Layout
import FrappeSyntax.Proofs.Lexeme
import FrappeSyntax.Proofs.Line
import FrappeSyntax.Proofs.LineLookup
import FrappeSyntax.Proofs.Locality
import FrappeSyntax.Proofs.Lockstep
import FrappeSyntax.Proofs.Lookahead
import FrappeSyntax.Proofs.Matching
import FrappeSyntax.Proofs.Member
import FrappeSyntax.Proofs.ProductionComposition
import FrappeSyntax.Proofs.ProductionFault
import FrappeSyntax.Proofs.ProductionLockstep
import FrappeSyntax.Proofs.ProductionTrace
import FrappeSyntax.Proofs.Program
import FrappeSyntax.Proofs.ProgramAppend
import FrappeSyntax.Proofs.Pushback
import FrappeSyntax.Proofs.QuotedText
import FrappeSyntax.Proofs.ReadAhead
import FrappeSyntax.Proofs.Reading
import FrappeSyntax.Proofs.Repetition
import FrappeSyntax.Proofs.RoundTrip
import FrappeSyntax.Proofs.ScanAppend
import FrappeSyntax.Proofs.ScanError
import FrappeSyntax.Proofs.Sequence
import FrappeSyntax.Proofs.Series
import FrappeSyntax.Proofs.Shape
import FrappeSyntax.Proofs.Spelling
import FrappeSyntax.Proofs.Statement
import FrappeSyntax.Proofs.StreamHistory
import FrappeSyntax.Proofs.StringDecoding
import FrappeSyntax.Proofs.Suggestion
import FrappeSyntax.Proofs.Tape
import FrappeSyntax.Proofs.Termination
import FrappeSyntax.Proofs.Tiling
import FrappeSyntax.Proofs.TimeLimit
import FrappeSyntax.Proofs.Trace
import FrappeSyntax.Proofs.Walk
import FrappeSyntax.Proofs.Words
import FrappeSyntax.Proofs.Writable
import FrappeSyntax.Series
import FrappeSyntax.Series.Parser
import FrappeSyntax.Session
import FrappeSyntax.Statement
import FrappeSyntax.Statement.Dump
import FrappeSyntax.Statement.Outline
import FrappeSyntax.Statement.Parser
import FrappeSyntax.Text.Blank
import FrappeSyntax.Text.Bytes
import FrappeSyntax.Text.Hidden
import FrappeSyntax.Text.Line
import FrappeSyntax.Text.Quoted
import FrappeSyntax.Text.Terminal
import FrappeSyntax.Token
import FrappeSyntax.Token.Cursor
import FrappeSyntax.Token.Lexeme
import FrappeSyntax.Token.Scan
import FrappeSyntax.Token.Stream
import FrappeSyntax.Token.StringLiteral
