import Flowchart.Text
import Flowchart.Text.Digit
import Flowchart.Text.Printable
import Flowchart.Text.Word
import Flowchart.Keyed
import Flowchart.Named
import Flowchart.Shape
import Flowchart.Direction
import Flowchart.Numeral
import Flowchart.Binary64
import Flowchart.Binary64.Decimal
import Flowchart.Json
import Flowchart.Json.Token
import Flowchart.Json.Reader
import Flowchart.Json.Writer
import Flowchart.Json.Display
import Flowchart.Graph
import Flowchart.Diagram.Declaration
import Flowchart.Diagram.Keyword
import Flowchart.Diagram.Arrow
import Flowchart.Diagram.Connection
import Flowchart.Diagram.Statement
import Flowchart.Diagram.Reading
import Flowchart.Diagram.Writing
import Flowchart.Record
import Flowchart.Text.Utf8
import Flowchart.Text.Surrogate
import Flowchart.Text.Encoding
import Flowchart.Text.LineEnd
import Flowchart.Binary64.NumberText
import Flowchart.Numeral.Input
import Flowchart.IdSource
import Flowchart.Builder
import Flowchart.Settings
import Flowchart.FileTree
import Flowchart.Settings.EnvironmentFile
import Flowchart.CommandLine.Command
import Flowchart.CommandLine.Help
import Flowchart.CommandLine.Word
import Flowchart.CommandLine.Task
import Flowchart.CommandLine.Run
import Flowchart.Service.Exchange
import Flowchart.Service.Endpoint
import Flowchart.Service.Conversion
import Flowchart.Service.Creation
import Flowchart.Service
import Flowchart.Main
import Flowchart.Proofs.Align
import Flowchart.Proofs.Arrow
import Flowchart.Proofs.Clean
import Flowchart.Proofs.Connection
import Flowchart.Proofs.Declaration
import Flowchart.Proofs.FixedPoint
import Flowchart.Proofs.Keyed
import Flowchart.Proofs.Keyword
import Flowchart.Proofs.Legible
import Flowchart.Proofs.Line
import Flowchart.Proofs.Normalized
import Flowchart.Proofs.Origin
import Flowchart.Proofs.Plain
import Flowchart.Proofs.Reading
import Flowchart.Proofs.Regenerate
import Flowchart.Proofs.Reread
import Flowchart.Proofs.Safe
import Flowchart.Proofs.Split
import Flowchart.Proofs.Unambiguous
import Flowchart.Proofs.IdSource
import Flowchart.Proofs.WellFormed
import Flowchart.Proofs.Record
import Flowchart.Proofs.Binary64.Rounding
import Flowchart.Proofs.Binary64.NumberText
import Flowchart.Proofs.Json.Number
import Flowchart.Proofs.Json.Text
import Flowchart.Proofs.Json.Token
import Flowchart.Proofs.Json.Part
import Flowchart.Proofs.Json.RoundTrip
import Flowchart.Proofs.FileTree
import Flowchart.Proofs.Utf8
import Flowchart.Storage
import Flowchart.Proofs.Json.LineEnd
import Flowchart.Proofs.Storable
import Flowchart.Proofs.Storage
import Flowchart.Proofs.Service.Routing
import Flowchart.Proofs.Service.Isolation
import Flowchart.Proofs.Service.Conversion
import Flowchart.Proofs.Styling
import Flowchart.Proofs.Json.Integer
import Flowchart.Proofs.CommandLine
import Flowchart.Proofs.Grammar
import Flowchart.Proofs.Words
import Flowchart.Proofs.Delivery
import Flowchart.Proofs.Service.Creation
import Flowchart.Proofs.Layout
import Flowchart.Proofs.Concatenation
import Flowchart.Proofs.Rearrangement
import Flowchart.Proofs.Ignored
import Flowchart.Proofs.Numeral.Canonical
