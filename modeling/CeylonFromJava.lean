import CeylonFromJava.Ceylon.ImportTable
import CeylonFromJava.Ceylon.Layout
import CeylonFromJava.Ceylon.Name
import CeylonFromJava.Ceylon.Source
import CeylonFromJava.Ceylon.Temporaries
import CeylonFromJava.Ceylon.Tree
import CeylonFromJava.Ceylon.Ty
import CeylonFromJava.Cli.Arguments
import CeylonFromJava.Cli.Command
import CeylonFromJava.Cli.Disk
import CeylonFromJava.Cli.Host
import CeylonFromJava.Cli.Path
import CeylonFromJava.Cli.Settings
import CeylonFromJava.Conversion.Config
import CeylonFromJava.Conversion.Operand
import CeylonFromJava.Conversion.Scope
import CeylonFromJava.Conversion.Tree
import CeylonFromJava.Conversion.Types
import CeylonFromJava.Conversion.Unit
import CeylonFromJava.Decimal.Shortest
import CeylonFromJava.Java.Build
import CeylonFromJava.Java.Decode
import CeylonFromJava.Java.Encode
import CeylonFromJava.Java.Operator
import CeylonFromJava.Java.Reader
import CeylonFromJava.Java.SameStructure
import CeylonFromJava.Java.TailDepth
import CeylonFromJava.Java.Tree
import CeylonFromJava.Java.TypeRef
import CeylonFromJava.Json.Basic
import CeylonFromJava.Json.Decoder
import CeylonFromJava.Json.Fault
import CeylonFromJava.Json.Number
import CeylonFromJava.Json.Scan
import CeylonFromJava.Json.StringLiteral
import CeylonFromJava.Main
import CeylonFromJava.Output.Piece
import CeylonFromJava.Output.Sink
import CeylonFromJava.Output.Target
import CeylonFromJava.Output.Writer
import CeylonFromJava.Proofs.Ceylon.DeclaredTypes
import CeylonFromJava.Proofs.Ceylon.Evaluation
import CeylonFromJava.Proofs.Ceylon.Executions
import CeylonFromJava.Proofs.Ceylon.ImportGroups
import CeylonFromJava.Proofs.Ceylon.LayoutBrackets
import CeylonFromJava.Proofs.Ceylon.LayoutNesting
import CeylonFromJava.Proofs.Ceylon.Locals
import CeylonFromJava.Proofs.Ceylon.OwnTexts
import CeylonFromJava.Proofs.Ceylon.Precedence
import CeylonFromJava.Proofs.Ceylon.Reading
import CeylonFromJava.Proofs.Ceylon.TempLedger
import CeylonFromJava.Proofs.Ceylon.TempOrder
import CeylonFromJava.Proofs.Ceylon.Tokens
import CeylonFromJava.Proofs.Ceylon.TypeDecomposition
import CeylonFromJava.Proofs.Ceylon.TypeText
import CeylonFromJava.Proofs.Ceylon.UpdateForm
import CeylonFromJava.Proofs.Cli.OutputFiles
import CeylonFromJava.Proofs.Cli.Places
import CeylonFromJava.Proofs.Cli.Runs
import CeylonFromJava.Proofs.Conversion.BracketedText
import CeylonFromJava.Proofs.Conversion.CallCount
import CeylonFromJava.Proofs.Conversion.CastChecks
import CeylonFromJava.Proofs.Conversion.CleanWords
import CeylonFromJava.Proofs.Conversion.CountingLoop
import CeylonFromJava.Proofs.Conversion.DoLoop
import CeylonFromJava.Proofs.Conversion.ElementUpdates
import CeylonFromJava.Proofs.Conversion.ExprCalls
import CeylonFromJava.Proofs.Conversion.ExprContext
import CeylonFromJava.Proofs.Conversion.Grouping
import CeylonFromJava.Proofs.Conversion.LoopHeaders
import CeylonFromJava.Proofs.Conversion.Marker
import CeylonFromJava.Proofs.Conversion.NormalTypes
import CeylonFromJava.Proofs.Conversion.NullTests
import CeylonFromJava.Proofs.Conversion.Outline
import CeylonFromJava.Proofs.Conversion.PlainExpr
import CeylonFromJava.Proofs.Conversion.PrefixSigns
import CeylonFromJava.Proofs.Conversion.ProperTrees
import CeylonFromJava.Proofs.Conversion.PureOperands
import CeylonFromJava.Proofs.Conversion.ReservedSegments
import CeylonFromJava.Proofs.Conversion.Spellings
import CeylonFromJava.Proofs.Conversion.StmtContext
import CeylonFromJava.Proofs.Conversion.SwitchArms
import CeylonFromJava.Proofs.Conversion.TailBudget
import CeylonFromJava.Proofs.Conversion.TempCapture
import CeylonFromJava.Proofs.Conversion.TracedTrees
import CeylonFromJava.Proofs.Conversion.TreeInduction
import CeylonFromJava.Proofs.Conversion.TreeLocals
import CeylonFromJava.Proofs.Conversion.TreeParts
import CeylonFromJava.Proofs.Conversion.VariableMarkers
import CeylonFromJava.Proofs.Java.Bodies
import CeylonFromJava.Proofs.Java.Calls
import CeylonFromJava.Proofs.Java.CleanWords
import CeylonFromJava.Proofs.Java.Continues
import CeylonFromJava.Proofs.Java.CountingLoop
import CeylonFromJava.Proofs.Java.DoLoop
import CeylonFromJava.Proofs.Java.Evaluation
import CeylonFromJava.Proofs.Java.Executions
import CeylonFromJava.Proofs.Java.Parentheses
import CeylonFromJava.Proofs.Java.Presentation
import CeylonFromJava.Proofs.Java.RoundTrip
import CeylonFromJava.Proofs.Java.SwitchRuns
import CeylonFromJava.Proofs.Java.Words
import CeylonFromJava.Proofs.Json.Decoding
import CeylonFromJava.Proofs.Json.Grammar
import CeylonFromJava.Proofs.Json.Literals
import CeylonFromJava.Proofs.Json.Nesting
import CeylonFromJava.Proofs.Json.Presentation
import CeylonFromJava.Proofs.Json.Records
import CeylonFromJava.Proofs.Json.ScanText
import CeylonFromJava.Proofs.Output.Brackets
import CeylonFromJava.Proofs.Output.InlineText
import CeylonFromJava.Proofs.Output.LimitedTarget
import CeylonFromJava.Proofs.Output.Nesting
import CeylonFromJava.Proofs.Output.SinkBytes
import CeylonFromJava.Proofs.Output.SinkLines
import CeylonFromJava.Proofs.Output.TempNumbers
import CeylonFromJava.Proofs.Output.UnitsApart
import CeylonFromJava.Proofs.Text.SmallLetters
import CeylonFromJava.Text.Alphabetic
import CeylonFromJava.Text.CodePoint
import CeylonFromJava.Text.GraphemeExtend
import CeylonFromJava.Text.Lowercase
import CeylonFromJava.Text.Quoted
import CeylonFromJava.Text.SmallForm
import CeylonFromJava.Text.Unprintable
import CeylonFromJava.Text.WhiteSpace
import CeylonFromJava.Toml.Document
import CeylonFromJava.Toml.Scanner
import CeylonFromJava.Toml.Table
