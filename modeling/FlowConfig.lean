import FlowConfig.Bundle.Compatibility
import FlowConfig.Bundle.Coordinate
import FlowConfig.Bundle.Manifest
import FlowConfig.Bundle.Registry
import FlowConfig.Bytes
import FlowConfig.CommandLine.Arguments
import FlowConfig.CommandLine.Run
import FlowConfig.CommandLine.Switch
import FlowConfig.Dictionary
import FlowConfig.Document
import FlowConfig.Document.Builder
import FlowConfig.Document.Reading
import FlowConfig.Element
import FlowConfig.Flow.Decoding
import FlowConfig.Flow.Emptiness
import FlowConfig.Flow.Layout
import FlowConfig.Flow.Loading
import FlowConfig.Flow.Model
import FlowConfig.Flow.Record
import FlowConfig.Gzip.Bits
import FlowConfig.Gzip.Checksum
import FlowConfig.Gzip.Codes
import FlowConfig.Gzip.Deflate
import FlowConfig.Gzip.Fault
import FlowConfig.Gzip.Huffman
import FlowConfig.Gzip.Inflate
import FlowConfig.Gzip.Member
import FlowConfig.Gzip.Token
import FlowConfig.Issue
import FlowConfig.Reporting
import FlowConfig.Json.Reader
import FlowConfig.Json.Scalar
import FlowConfig.Json.Shape
import FlowConfig.Json.Text
import FlowConfig.Json.Value
import FlowConfig.Main
import FlowConfig.Markup.Attribute
import FlowConfig.Markup.Reader
import FlowConfig.Markup.Piece
import FlowConfig.Markup.Reference
import FlowConfig.Markup.Scope
import FlowConfig.Number.Binary64
import FlowConfig.Proofs.Bundle.Compatibility
import FlowConfig.Proofs.Bundle.Reporting
import FlowConfig.Proofs.Bundle.TemplateScope
import FlowConfig.Proofs.CommandLine.Checking
import FlowConfig.Proofs.Document.Table
import FlowConfig.Proofs.Element.Fields
import FlowConfig.Proofs.Element.Pruning
import FlowConfig.Proofs.Element.Tree
import FlowConfig.Proofs.Flow.Approval
import FlowConfig.Proofs.Flow.Conservation
import FlowConfig.Proofs.Flow.Counting
import FlowConfig.Proofs.Flow.GroupDecoding
import FlowConfig.Proofs.Flow.Records
import FlowConfig.Proofs.Schema.Acceptance
import FlowConfig.Proofs.Schema.Conformance
import FlowConfig.Proofs.Schema.Fitting
import FlowConfig.Proofs.Schema.Flow
import FlowConfig.Proofs.Schema.Pruning
import FlowConfig.Proofs.Schema.Role
import FlowConfig.Schema.Basic
import FlowConfig.Schema.Flow
import FlowConfig.Schema.SimpleType
import FlowConfig.Schema.Validation
import FlowConfig.Settings
import FlowConfig.Storage.Disk
import FlowConfig.Storage.FileSystem
import FlowConfig.Storage.Loading
import FlowConfig.Storage.Path
import FlowConfig.Storage.Store
import FlowConfig.Text.Blank
import FlowConfig.Text.Numeral
import FlowConfig.Text.Utf8
import FlowConfig.Version
import FlowConfig.Proofs.Flow.Templates
import FlowConfig.Proofs.Flow.Emptiness
import FlowConfig.Proofs.Gzip.Bits
import FlowConfig.Proofs.Gzip.Huffman
import FlowConfig.Proofs.Gzip.Token
import FlowConfig.Proofs.Gzip.Copies
import FlowConfig.Proofs.Gzip.RoundTrip
import FlowConfig.Proofs.Gzip.Persistence
import FlowConfig.Proofs.Gzip.Members
import FlowConfig.Proofs.Storage.FileSystem
import FlowConfig.Proofs.Storage.Replacing
import FlowConfig.Proofs.Storage.Interruption
import FlowConfig.Proofs.Storage.Runs
import FlowConfig.Proofs.Storage.Files
import FlowConfig.Proofs.Markup.Lexeme
import FlowConfig.Proofs.Markup.Transcript
import FlowConfig.Proofs.Element.Offsets
import FlowConfig.Proofs.Document.Offsets
import FlowConfig.Proofs.Schema.Offsets
import FlowConfig.Proofs.Document.Construction
import FlowConfig.Proofs.Document.Reporting
import FlowConfig.Proofs.Document.Transcription
import FlowConfig.Proofs.Document.Reading
import FlowConfig.Proofs.Flow.LexicalForm
import FlowConfig.Proofs.Text.Utf8
import FlowConfig.Proofs.Markup.Escaping
import FlowConfig.Proofs.Markup.Name
import FlowConfig.Proofs.Markup.RenderedTag
import FlowConfig.Proofs.Markup.Rendering
import FlowConfig.Proofs.Document.Outline
import FlowConfig.Proofs.Document.RoundTrip
import FlowConfig.Proofs.Bundle.Registration
import FlowConfig.Proofs.CommandLine.Reading
import FlowConfig.Proofs.CommandLine.Agreement
import FlowConfig.Proofs.CommandLine.Packing
import FlowConfig.Proofs.Document.Places
import FlowConfig.Proofs.Document.Numbering
import FlowConfig.Proofs.Document.Closing
import FlowConfig.Proofs.Bundle.Growth
import FlowConfig.Proofs.Number.Decimal
import FlowConfig.Proofs.Schema.Field
import FlowConfig.Proofs.Flow.Sources
import FlowConfig.Proofs.Text.WellFormed
import FlowConfig.Proofs.Markup.Cutting
import FlowConfig.Proofs.Markup.Scanning
import FlowConfig.Proofs.Markup.Parts
import FlowConfig.Proofs.Markup.Encoding
import FlowConfig.Proofs.Document.Encoding
import FlowConfig.Proofs.Schema.Change
import FlowConfig.Proofs.Schema.Typing
import FlowConfig.Proofs.Schema.Order
import FlowConfig.Proofs.Markup.StartTag
import FlowConfig.Proofs.Document.Opening
import FlowConfig.Proofs.Document.Location
import FlowConfig.Proofs.Flow.RootGroup
import FlowConfig.Proofs.Flow.Verdict
import FlowConfig.Proofs.Flow.Totals
import FlowConfig.Proofs.Flow.Layouts
import FlowConfig.Proofs.Number.Integer
import FlowConfig.Proofs.Flow.LiveGroups
import FlowConfig.Proofs.Flow.Integers
import FlowConfig.Proofs.Flow.References
import FlowConfig.Proofs.Document.Notices
import FlowConfig.Proofs.Document.Balance
import FlowConfig.Proofs.Bundle.TemplatePlaces
import FlowConfig.Proofs.Json.Written
import FlowConfig.Proofs.Json.Text
import FlowConfig.Proofs.Json.Shape
import FlowConfig.Proofs.Bundle.Manifest
import FlowConfig.Proofs.Bundle.Loading
import FlowConfig.Proofs.Text.Parts
import FlowConfig.Proofs.Document.Position
import FlowConfig.Proofs.Number.Natural
import FlowConfig.Proofs.Flow.Version
import FlowConfig.Proofs.Schema.SimpleType
import FlowConfig.Proofs.Flow.Properties
