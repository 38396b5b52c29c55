import Landscape.Build
import Landscape.Build.Draft
import Landscape.Build.Finding
import Landscape.Build.Linking
import Landscape.Build.Registration
import Landscape.Build.Settings
import Landscape.Check.Basic
import Landscape.Check.Mismatch
import Landscape.CommandLine.Invocation
import Landscape.CommandLine.Report
import Landscape.CommandLine.Run
import Landscape.Configuration.Basic
import Landscape.Configuration.Key
import Landscape.Configuration.Layer
import Landscape.Configuration.Loading
import Landscape.Configuration.LogLevel
import Landscape.Diagnostic
import Landscape.Document.Basic
import Landscape.Document.Node
import Landscape.FileTree
import Landscape.Grammar.Body
import Landscape.Grammar.Document
import Landscape.Grammar.Failure
import Landscape.Grammar.Map
import Landscape.Grammar.Parser
import Landscape.Grammar.Terminal
import Landscape.Json.Basic
import Landscape.Json.Decoding
import Landscape.Json.Encoding
import Landscape.Json.Printer
import Landscape.Main
import Landscape.Model.Basic
import Landscape.Model.Lookup
import Landscape.Model.Navigation
import Landscape.OrderedSet
import Landscape.Outcome
import Landscape.Proofs.Build.Arenas
import Landscape.Proofs.Build.Closed
import Landscape.Proofs.Build.Findings
import Landscape.Proofs.Build.Grading
import Landscape.Proofs.Build.Implementations
import Landscape.Proofs.Build.Linking
import Landscape.Proofs.Build.Lookup
import Landscape.Proofs.Build.MapQueries
import Landscape.Proofs.Build.Membership
import Landscape.Proofs.Build.Names
import Landscape.Proofs.Build.Order
import Landscape.Proofs.Build.Places
import Landscape.Proofs.Build.Pruned
import Landscape.Proofs.Build.Registration
import Landscape.Proofs.Build.Report
import Landscape.Proofs.Build.Resolution
import Landscape.Proofs.Build.RoleQueries
import Landscape.Proofs.Build.ScopedLookup
import Landscape.Proofs.Build.Settings
import Landscape.Proofs.Build.Shares
import Landscape.Proofs.Build.Subjects
import Landscape.Proofs.Build.Unnoticed
import Landscape.Proofs.Build.Unplaced
import Landscape.Proofs.CommandLine.Run
import Landscape.Proofs.Configuration.Override
import Landscape.Proofs.Document.Part
import Landscape.Proofs.Document.Preorder
import Landscape.Proofs.Document.Pruned
import Landscape.Proofs.Document.Unplaced
import Landscape.Proofs.Document.Writing
import Landscape.Proofs.Grammar.Advances
import Landscape.Proofs.Grammar.Alike
import Landscape.Proofs.Grammar.Balance
import Landscape.Proofs.Grammar.Body
import Landscape.Proofs.Grammar.Clauses
import Landscape.Proofs.Grammar.Closing
import Landscape.Proofs.Grammar.Concatenation
import Landscape.Proofs.Grammar.Consumes
import Landscape.Proofs.Grammar.Decides
import Landscape.Proofs.Grammar.Declared
import Landscape.Proofs.Grammar.Derivation
import Landscape.Proofs.Grammar.Document
import Landscape.Proofs.Grammar.Enclosed
import Landscape.Proofs.Grammar.Entries
import Landscape.Proofs.Grammar.Extends
import Landscape.Proofs.Grammar.Headings
import Landscape.Proofs.Grammar.Keywords
import Landscape.Proofs.Grammar.Map
import Landscape.Proofs.Grammar.Mends
import Landscape.Proofs.Grammar.MendsBody
import Landscape.Proofs.Grammar.MendsDocument
import Landscape.Proofs.Grammar.MendsMap
import Landscape.Proofs.Grammar.Nesting
import Landscape.Proofs.Grammar.Parts
import Landscape.Proofs.Grammar.Progress
import Landscape.Proofs.Grammar.Reads
import Landscape.Proofs.Grammar.Remainder
import Landscape.Proofs.Grammar.RoleBinding
import Landscape.Proofs.Grammar.Runs
import Landscape.Proofs.Grammar.Settings
import Landscape.Proofs.Grammar.Splits
import Landscape.Proofs.Grammar.Terminal
import Landscape.Proofs.Grammar.Unfolding
import Landscape.Proofs.Grammar.Unmoved
import Landscape.Proofs.Grammar.WellFormed
import Landscape.Proofs.Layout
import Landscape.Proofs.Model.Closed
import Landscape.Proofs.Model.View
import Landscape.Proofs.Reading.Blame
import Landscape.Proofs.Reading.Marking
import Landscape.Proofs.Reading.Pointing
import Landscape.Proofs.Reading.Policy
import Landscape.Proofs.Reading.Spans
import Landscape.Proofs.Reading.Unreadable
import Landscape.Proofs.Reading.Verdict
import Landscape.Proofs.Relation.Classification
import Landscape.Proofs.Source.Lines
import Landscape.Proofs.Source.Positions
import Landscape.Proofs.Text.ByteOrder
import Landscape.Proofs.Text.Capitals
import Landscape.Proofs.Token.Escapes
import Landscape.Proofs.Token.Munch
import Landscape.Proofs.Token.Pattern
import Landscape.Proofs.Token.Reach
import Landscape.Proofs.Token.Stretch
import Landscape.Proofs.Token.Stuck
import Landscape.Proofs.Token.Writing
import Landscape.Reading
import Landscape.Relation.Classification
import Landscape.Relation.Pattern
import Landscape.Sample
import Landscape.Source.Excerpt
import Landscape.Source.Position
import Landscape.Source.Span
import Landscape.Text.AsciiCase
import Landscape.Text.Blank
import Landscape.Text.Bytes
import Landscape.Text.Hidden
import Landscape.Text.Letter
import Landscape.Text.Lines
import Landscape.Text.Literal
import Landscape.Text.Numeral
import Landscape.Text.Path
import Landscape.Text.Ranges
import Landscape.Text.Uppercase
import Landscape.Text.Utf8
import Landscape.Token.Basic
import Landscape.Token.Quoted
import Landscape.Token.Rule
import Landscape.Token.Scan
import Landscape.Toml.Document
import Landscape.Toml.Number
import Landscape.Toml.Reader
import Landscape.Toml.Scalar
import Landscape.Toml.Table
import Landscape.Toml.Text
