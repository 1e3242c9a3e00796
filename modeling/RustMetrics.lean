import RustMetrics.Text.Utf8
import RustMetrics.Text.Blank
import RustMetrics.Text.Printable
import RustMetrics.Text.Quoted
import RustMetrics.Text.Digit
import RustMetrics.Text.Decimal
import RustMetrics.Text.LetterCase.Table
import RustMetrics.Text.LetterCase
import RustMetrics.Text.Codes
import RustMetrics.Digest.Blake2b
import RustMetrics.Node.Basic
import RustMetrics.Node.Listing
import RustMetrics.Node.Item
import RustMetrics.Node.Expression
import RustMetrics.Settings.Number
import RustMetrics.Settings.Moment
import RustMetrics.Settings.Scalar
import RustMetrics.Settings.Spread
import RustMetrics.Settings.Value
import RustMetrics.Failure
import RustMetrics.Failure.Told
import RustMetrics.Import.Tree
import RustMetrics.Import.Reading
import RustMetrics.Import.Steps
import RustMetrics.Fingerprint
import RustMetrics.Fingerprint.Subject
import RustMetrics.Fingerprint.Cache
import RustMetrics.Graph.Basic
import RustMetrics.Graph.Session
import RustMetrics.Graph.Site
import RustMetrics.Graph.Walk
import RustMetrics.Graph.Trace
import RustMetrics.Decision
import RustMetrics.Source
import RustMetrics.Symbol.Tree
import RustMetrics.Symbol.Outline
import RustMetrics.Json.Basic
import RustMetrics.Json.Printer
import RustMetrics.Json.Reader
import RustMetrics.Json.Load
import RustMetrics.Report.Basic
import RustMetrics.Report.Text
import RustMetrics.Report.Document
import RustMetrics.Settings.Basic
import RustMetrics.Yaml.Mark
import RustMetrics.Yaml.Cursor
import RustMetrics.Yaml.Token
import RustMetrics.Yaml.Scalar
import RustMetrics.Yaml.Property
import RustMetrics.Yaml.Lexer
import RustMetrics.Yaml.Meaning
import RustMetrics.Yaml.Content
import RustMetrics.Yaml.Number
import RustMetrics.Yaml.Base64
import RustMetrics.Yaml.Load
import RustMetrics.Disk.Path
import RustMetrics.Disk.Basic
import RustMetrics.Disk.Listing
import RustMetrics.Settings.Load
import RustMetrics.Survey
import RustMetrics.Log
import RustMetrics.Command.Switch
import RustMetrics.Command.Event
import RustMetrics.Command.Usage
import RustMetrics.Command.Request
import RustMetrics.Command.Run
import RustMetrics.Disk.Bundle
import RustMetrics.Main
import RustMetrics.Proofs.Fingerprint.Cache
import RustMetrics.Proofs.Graph.Site
import RustMetrics.Proofs.Graph.Walk
import RustMetrics.Proofs.Graph.Trace
import RustMetrics.Proofs.Graph.Rooted
import RustMetrics.Proofs.Fingerprint.Shape
import RustMetrics.Proofs.Fingerprint.Bytes
import RustMetrics.Proofs.Graph.Revisit
import RustMetrics.Proofs.Node.Bare
import RustMetrics.Proofs.Graph.Visits
import RustMetrics.Proofs.Graph.Alone
import RustMetrics.Proofs.Graph.Gate
import RustMetrics.Proofs.Text.Utf8
import RustMetrics.Proofs.Import.Denotation
import RustMetrics.Proofs.Report.Agreement
import RustMetrics.Proofs.Fingerprint.Message
import RustMetrics.Proofs.Fingerprint.Extras
import RustMetrics.Proofs.Disk.Write
import RustMetrics.Proofs.Command.Completion
import RustMetrics.Proofs.Command.Effects
import RustMetrics.Proofs.Settings.Merge
import RustMetrics.Proofs.Report.Excess
import RustMetrics.Proofs.Command.Verdict
import RustMetrics.Proofs.Graph.Shapes
import RustMetrics.Proofs.Node.Parsed
import RustMetrics.Proofs.Graph.OwnShape
import RustMetrics.Proofs.Graph.Order
import RustMetrics.Proofs.Graph.Append
import RustMetrics.Proofs.Command.Flags
import RustMetrics.Proofs.Settings.Shape
import RustMetrics.Proofs.Disk.Naming
import RustMetrics.Proofs.Report.FileByFile
import RustMetrics.Proofs.Node.Disjoint
import RustMetrics.Proofs.Decision
import RustMetrics.Proofs.Graph.Visited
import RustMetrics.Proofs.Symbol.Outline
import RustMetrics.Proofs.Json.Grammar
import RustMetrics.Proofs.Json.Printed
import RustMetrics.Proofs.Report.RoundTrip
import RustMetrics.Proofs.Graph.Chain
import RustMetrics.Proofs.Graph.Total
import RustMetrics.Proofs.Symbol.Comments
import RustMetrics.Proofs.Disk.Search
import RustMetrics.Proofs.Settings.Laws
import RustMetrics.Proofs.Settings.Acceptance
import RustMetrics.Proofs.Graph.History
import RustMetrics.Proofs.Source
