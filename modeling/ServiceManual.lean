import ServiceManual.Calendar
import ServiceManual.Checked
import ServiceManual.Command
import ServiceManual.Command.Arguments
import ServiceManual.Configuration
import ServiceManual.Document
import ServiceManual.Document.Block
import ServiceManual.Expansion
import ServiceManual.Files.Path
import ServiceManual.Files.Plan
import ServiceManual.Files.Tree
import ServiceManual.Loading
import ServiceManual.Main
import ServiceManual.Manual
import ServiceManual.Manual.Pool
import ServiceManual.Naming
import ServiceManual.Number.Binary64
import ServiceManual.Number.Numeral
import ServiceManual.Number.Shortest
import ServiceManual.Provenance
import ServiceManual.Raw
import ServiceManual.Raw.Reading
import ServiceManual.Reach
import ServiceManual.Reach.Walk
import ServiceManual.Reference
import ServiceManual.Rule
import ServiceManual.Service
import ServiceManual.Service.Reading
import ServiceManual.Service.Writing
import ServiceManual.Text.Base64
import ServiceManual.Text.Blank
import ServiceManual.Text.CaseTable
import ServiceManual.Text.DecimalDigit
import ServiceManual.Text.Lowercase
import ServiceManual.Text.Pieces
import ServiceManual.Text.PrintableTable
import ServiceManual.Text.Quoted
import ServiceManual.Text.Style
import ServiceManual.Text.Surrogate
import ServiceManual.Text.Utf8
import ServiceManual.Words
import ServiceManual.Words.Pattern
import ServiceManual.Yaml.Cursor
import ServiceManual.Yaml.Document
import ServiceManual.Yaml.Node
import ServiceManual.Yaml.Number
import ServiceManual.Yaml.Resolution
import ServiceManual.Yaml.ScalarText
import ServiceManual.Yaml.Source
import ServiceManual.Yaml.TagText
import ServiceManual.Yaml.Timestamp
import ServiceManual.Yaml.Token
import ServiceManual.Proofs.Reach.Invariant
import ServiceManual.Proofs.Reach.Exact
import ServiceManual.Proofs.Document.Links
import ServiceManual.Proofs.Document.Locality
import ServiceManual.Proofs.Document.Reordering
import ServiceManual.Proofs.Document.Contents
import ServiceManual.Proofs.Words
import ServiceManual.Proofs.Document.Anchors
import ServiceManual.Proofs.Manual.Saving
import ServiceManual.Proofs.Manual.Pool
import ServiceManual.Proofs.Raw.Reading
import ServiceManual.Proofs.Rule
import ServiceManual.Proofs.Service.Parts
import ServiceManual.Proofs.Service.RoundTrip
import ServiceManual.Proofs.Service.Faults
import ServiceManual.Proofs.Loading
import ServiceManual.Proofs.Configuration
import ServiceManual.Proofs.Manual.Writing
import ServiceManual.Proofs.Generation
import ServiceManual.Proofs.Document.Rules
import ServiceManual.Proofs.Raw.Growth
import ServiceManual.Proofs.Service.Growth
import ServiceManual.Proofs.Service.Names
import ServiceManual.Proofs.Words.Cutting
import ServiceManual.Proofs.Manual.Paths
import ServiceManual.Proofs.Words.Casing
import ServiceManual.Proofs.Expansion.Flattening
import ServiceManual.Proofs.Expansion.Shown
import ServiceManual.Proofs.Service.Fields
import ServiceManual.Proofs.Service.Objects
import ServiceManual.Proofs.Service.Metadata
import ServiceManual.Proofs.Document.Values
import ServiceManual.Proofs.Configuration.Starter
import ServiceManual.Proofs.Files.Directories
import ServiceManual.Proofs.Configuration.Refusal
import ServiceManual.Proofs.Document.Signatures
import ServiceManual.Proofs.Document.Spacing
import ServiceManual.Proofs.Reach.Underway
