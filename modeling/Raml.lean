import Raml.Base64
import Raml.Cache
import Raml.Check
import Raml.CommandLine.Arguments
import Raml.CommandLine.Run
import Raml.Decimal.Layout
import Raml.Decimal.Reading
import Raml.Decimal.Shortest
import Raml.Decode.Documents
import Raml.Decode.Fields
import Raml.Decode.Methods
import Raml.Decode.Types
import Raml.Decode.Value
import Raml.Document
import Raml.Error
import Raml.ExampleValue
import Raml.Form.Members
import Raml.Form.Outline
import Raml.Form.Read
import Raml.Form.Write
import Raml.Glob
import Raml.Json
import Raml.Json.Cursor
import Raml.Json.Printer
import Raml.Json.Reader
import Raml.Json.Skip
import Raml.Keyed
import Raml.Library
import Raml.Load
import Raml.Main
import Raml.Method
import Raml.Mismatch
import Raml.Parse
import Raml.Pass
import Raml.Pass.Examples
import Raml.Pass.Fill
import Raml.Pass.Normalize
import Raml.Pass.Restore
import Raml.Path
import Raml.Proofs.Annotations.Applied
import Raml.Proofs.Annotations.Declared
import Raml.Proofs.Annotations.Inherited
import Raml.Proofs.Annotations.Kept
import Raml.Proofs.Annotations.Linked
import Raml.Proofs.Annotations.Origins
import Raml.Proofs.Annotations.Passes
import Raml.Proofs.Annotations.Targets
import Raml.Proofs.Annotations.Unused
import Raml.Proofs.Annotations.Written
import Raml.Proofs.Cache.Agreement
import Raml.Proofs.Cache.Contents
import Raml.Proofs.Cache.History
import Raml.Proofs.Cache.Links
import Raml.Proofs.Cache.Nulls
import Raml.Proofs.Cache.Recall
import Raml.Proofs.Cache.Restoring
import Raml.Proofs.Checking.Acceptance
import Raml.Proofs.Checking.Blame
import Raml.Proofs.Checking.Failures
import Raml.Proofs.Checking.Names
import Raml.Proofs.Checking.Relaxation
import Raml.Proofs.Checking.Unused
import Raml.Proofs.Collections
import Raml.Proofs.Declarations.Groups
import Raml.Proofs.Declarations.Kept
import Raml.Proofs.Declarations.Lengths
import Raml.Proofs.Declarations.Parsed
import Raml.Proofs.Declarations.Passes
import Raml.Proofs.Decoding
import Raml.Proofs.Documents.Completed
import Raml.Proofs.Documents.Decoded
import Raml.Proofs.Documents.Enumeration
import Raml.Proofs.Documents.Files
import Raml.Proofs.Documents.Hooks
import Raml.Proofs.Documents.InPlace
import Raml.Proofs.Documents.Lending
import Raml.Proofs.Documents.Loaded
import Raml.Proofs.Documents.Loading
import Raml.Proofs.Documents.MediaTypes
import Raml.Proofs.Documents.Namespaces
import Raml.Proofs.Documents.Parts
import Raml.Proofs.Documents.Passage
import Raml.Proofs.Documents.Phases
import Raml.Proofs.Documents.Prepared
import Raml.Proofs.Documents.Rejected
import Raml.Proofs.Documents.Reshaped
import Raml.Proofs.Documents.Resolved
import Raml.Proofs.Documents.Settled
import Raml.Proofs.Documents.Sites
import Raml.Proofs.Documents.Spots
import Raml.Proofs.Documents.Stages
import Raml.Proofs.Documents.Survey
import Raml.Proofs.Documents.Typed
import Raml.Proofs.Documents.UnknownKeys
import Raml.Proofs.Documents.Walk
import Raml.Proofs.Examples.Agreement
import Raml.Proofs.Examples.Checked
import Raml.Proofs.Examples.Conformance
import Raml.Proofs.Examples.Derivation
import Raml.Proofs.Examples.Directories
import Raml.Proofs.Examples.Fitting
import Raml.Proofs.Examples.Regular
import Raml.Proofs.Examples.Scopes
import Raml.Proofs.Examples.Visiting
import Raml.Proofs.Guarantee
import Raml.Proofs.Json.Grammar
import Raml.Proofs.Json.Skipped
import Raml.Proofs.Loading.Alone
import Raml.Proofs.Loading.Pending
import Raml.Proofs.Normalization
import Raml.Proofs.Outcomes
import Raml.Proofs.Positions
import Raml.Proofs.References
import Raml.Proofs.Resolution.Annotations
import Raml.Proofs.Resolution.Chains
import Raml.Proofs.Resolution.Cycles
import Raml.Proofs.Resolution.Ending
import Raml.Proofs.Resolution.Filling
import Raml.Proofs.Resolution.Inheritance
import Raml.Proofs.Resolution.Kinds
import Raml.Proofs.Resolution.Knots
import Raml.Proofs.Resolution.Libraries
import Raml.Proofs.Resolution.Lineage
import Raml.Proofs.Resolution.Links
import Raml.Proofs.Resolution.Lookup
import Raml.Proofs.Resolution.Order
import Raml.Proofs.Resolution.Recorded
import Raml.Proofs.Resolution.Run
import Raml.Proofs.Resolution.Traversal
import Raml.Proofs.Resources.Parameters
import Raml.Proofs.Resources.Paths
import Raml.Proofs.Settings
import Raml.Proofs.Source.Agreement
import Raml.Proofs.Tables
import Raml.Proofs.Text.Excerpt
import Raml.Proofs.Traits.Kept
import Raml.Proofs.Traits.Substituted
import Raml.Proofs.Traits.Unused
import Raml.Proofs.Traits.Uses
import Raml.Proofs.Traits.Visible
import Raml.Proofs.Traits.Written
import Raml.Proofs.Values.Rereading
import Raml.Reading
import Raml.Resolution
import Raml.Review
import Raml.Settings
import Raml.Settings.Reader
import Raml.Sha512
import Raml.Site
import Raml.Source
import Raml.Source.Memory
import Raml.Source.Search
import Raml.Source.Tree
import Raml.Target
import Raml.Text.Escaped
import Raml.Text.Excerpt
import Raml.Text.Ranges
import Raml.Text.Utf8
import Raml.Text.Word
import Raml.TypeName
import Raml.TypeNode
import Raml.Value
import Raml.Word64
import Raml.Yaml.Cursor
import Raml.Yaml.Document
import Raml.Yaml.Event
import Raml.Yaml.Fault
import Raml.Yaml.Node
import Raml.Yaml.Scalar
import Raml.Yaml.Token
import Raml.Yaml.Token.Scalar
import Raml.Yaml.Token.Scanner
import Raml.Yaml.Token.Tag
