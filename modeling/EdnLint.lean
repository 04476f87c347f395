import EdnLint.CommandLine.Arguments
import EdnLint.CommandLine.Check
import EdnLint.CommandLine.Run
import EdnLint.CommandLine.Usage
import EdnLint.Config
import EdnLint.Datum.Basic
import EdnLint.Datum.Display
import EdnLint.Datum.Name
import EdnLint.Document.Location
import EdnLint.Document.Node
import EdnLint.Document.ReadError
import EdnLint.Document.Reader
import EdnLint.Document.Scalar
import EdnLint.Fault
import EdnLint.Files.Path
import EdnLint.Files.Tree
import EdnLint.Finding
import EdnLint.Glob
import EdnLint.Json.Basic
import EdnLint.Json.Printer
import EdnLint.Json.Reader
import EdnLint.Lint
import EdnLint.Linter
import EdnLint.Log
import EdnLint.Main
import EdnLint.Members
import EdnLint.Number.Basic
import EdnLint.Number.Binary64
import EdnLint.Number.Decimal
import EdnLint.Number.Numeral
import EdnLint.Pattern.Basic
import EdnLint.Pattern.Engine
import EdnLint.Pattern.Matcher
import EdnLint.Pattern.Reader
import EdnLint.Proofs.CommandLine.Checking
import EdnLint.Proofs.Config.Layers
import EdnLint.Proofs.Datum.Display
import EdnLint.Proofs.Datum.Equality
import EdnLint.Proofs.Datum.Merging
import EdnLint.Proofs.Datum.Name
import EdnLint.Proofs.Datum.Same
import EdnLint.Proofs.Datum.Spaces
import EdnLint.Proofs.Document.Atoms
import EdnLint.Proofs.Document.CheckedCalls
import EdnLint.Proofs.Document.CheckedReader
import EdnLint.Proofs.Document.Completeness
import EdnLint.Proofs.Document.Concatenation
import EdnLint.Proofs.Document.Decidable
import EdnLint.Proofs.Document.Descent
import EdnLint.Proofs.Document.Faults
import EdnLint.Proofs.Document.Form
import EdnLint.Proofs.Document.Grammar
import EdnLint.Proofs.Document.Keys
import EdnLint.Proofs.Document.LineEnds
import EdnLint.Proofs.Document.MapEntries
import EdnLint.Proofs.Document.Numerals
import EdnLint.Proofs.Document.Offsets
import EdnLint.Proofs.Document.Parts
import EdnLint.Proofs.Document.Places
import EdnLint.Proofs.Document.Printing
import EdnLint.Proofs.Document.Progress
import EdnLint.Proofs.Document.Reading
import EdnLint.Proofs.Document.Recognition
import EdnLint.Proofs.Document.Resolution
import EdnLint.Proofs.Document.ScalarText
import EdnLint.Proofs.Document.Slices
import EdnLint.Proofs.Document.Spans
import EdnLint.Proofs.Files.Place
import EdnLint.Proofs.Lint.Containment
import EdnLint.Proofs.Lint.Findings
import EdnLint.Proofs.Lint.Idempotence
import EdnLint.Proofs.Lint.Independence
import EdnLint.Proofs.Lint.Leftover
import EdnLint.Proofs.Lint.LineEnds
import EdnLint.Proofs.Lint.Marks
import EdnLint.Proofs.Lint.Placement
import EdnLint.Proofs.Lint.Ranges
import EdnLint.Proofs.Lint.ReadErrors
import EdnLint.Proofs.Lint.Resources
import EdnLint.Proofs.Lint.Undeclared
import EdnLint.Proofs.Number.Order
import EdnLint.Proofs.Schema.Annotations
import EdnLint.Proofs.Schema.Conformance
import EdnLint.Proofs.Schema.Elements
import EdnLint.Proofs.Schema.Passing
import EdnLint.Proofs.Schema.Reports
import EdnLint.Proofs.Schema.Shape
import EdnLint.Proofs.Schema.Validation
import EdnLint.Proofs.Session.Closing
import EdnLint.Proofs.Store.Closure
import EdnLint.Proofs.Store.DefinitionOrder
import EdnLint.Proofs.Store.ImportGraph
import EdnLint.Proofs.Store.Issues
import EdnLint.Proofs.Store.Lookup
import EdnLint.Proofs.Store.NestedLoads
import EdnLint.Proofs.Store.Stopping
import EdnLint.Proofs.Text.Coordinates
import EdnLint.Proofs.Text.Digits
import EdnLint.Proofs.Text.Grid
import EdnLint.Proofs.Text.Infix
import EdnLint.Proofs.Text.Position
import EdnLint.Proofs.Text.Utf8
import EdnLint.Proofs.Toml.Faults
import EdnLint.Proofs.Uri.FileUris
import EdnLint.Schema.Basic
import EdnLint.Schema.Problem
import EdnLint.Schema.Report
import EdnLint.Schema.Shape
import EdnLint.Schema.Validation
import EdnLint.Schema.Vocabulary
import EdnLint.Session
import EdnLint.Settings.Basic
import EdnLint.Settings.Moment
import EdnLint.Store.Basic
import EdnLint.Store.Definition
import EdnLint.Store.Loading
import EdnLint.Text.Basic
import EdnLint.Text.Case
import EdnLint.Text.Digit
import EdnLint.Text.Identifier
import EdnLint.Text.Lines
import EdnLint.Text.Position
import EdnLint.Text.Printable
import EdnLint.Text.Quoted
import EdnLint.Text.Space
import EdnLint.Text.Utf8
import EdnLint.Text.Word
import EdnLint.Toml.Draft
import EdnLint.Toml.Error
import EdnLint.Toml.Reader
import EdnLint.Toml.Scalar
import EdnLint.Toml.Text
import EdnLint.Uri
import EdnLint.Uri.Host
