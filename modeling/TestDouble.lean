import TestDouble.OrderedMap
import TestDouble.SortedMap
import TestDouble.Text.Segments
import TestDouble.Text.Blank
import TestDouble.Text.Case
import TestDouble.Text.Hexadecimal
import TestDouble.TypeName
import TestDouble.Identifier
import TestDouble.Number.Binary64
import TestDouble.Number.Shortest
import TestDouble.Number.Layout
import TestDouble.Number.Numeral
import TestDouble.Json
import TestDouble.Json.Writer
import TestDouble.Document
import TestDouble.Json.Token
import TestDouble.Json.Reader
import TestDouble.FilePath
import TestDouble.Document.Fields
import TestDouble.Descriptor.Basic
import TestDouble.Descriptor.CustomMethod
import TestDouble.Config
import TestDouble.Descriptor.Written
import TestDouble.Refusal
import TestDouble.Edit
import TestDouble.Registry
import TestDouble.Classified
import TestDouble.Members.Key
import TestDouble.Members
import TestDouble.MethodDefinition
import TestDouble.MethodTables
import TestDouble.MethodTables.Merge
import TestDouble.Request
import TestDouble.Fingerprint
import TestDouble.Fingerprint.Order
import TestDouble.Fingerprint.Encoding
import TestDouble.Sha256
import TestDouble.Fingerprint.Digest
import TestDouble.Resolution
import TestDouble.Label
import TestDouble.Builder
import TestDouble.Builder.Session
import TestDouble.Builder.Bench
import TestDouble.Builder.Desk
import TestDouble.Toml.Token
import TestDouble.Toml.Moment
import TestDouble.Toml.Bare
import TestDouble.Toml.Table
import TestDouble.Toml.Statement
import TestDouble.Toml.Reader
import TestDouble.FileTree
import TestDouble.Config.File
import TestDouble.Proofs.Reading
import TestDouble.Proofs.OrderedMap.Insertions
import TestDouble.Proofs.Members.Collected
import TestDouble.Proofs.Members.KeyText
import TestDouble.Proofs.Text.Runs
import TestDouble.Proofs.Members.KeyGrammar
import TestDouble.Proofs.Members.Tables
import TestDouble.Proofs.Members.Taken
import TestDouble.Proofs.Members.Entry
import TestDouble.Proofs.Members.Composition
import TestDouble.Proofs.Members.DataDefinitions
import TestDouble.Proofs.Members.Declarations
import TestDouble.Proofs.Descriptor.Repetition
import TestDouble.Proofs.Number.Rounding
import TestDouble.Proofs.Number.Text
import TestDouble.Proofs.Label.Recovered
import TestDouble.Proofs.Json.Agreement
import TestDouble.Proofs.Json.Reordered
import TestDouble.Proofs.Json.Text
import TestDouble.Proofs.Json.Identity
import TestDouble.Proofs.MethodTables.Winner
import TestDouble.Proofs.MethodTables.Overrides
import TestDouble.Proofs.MethodTables.Precedence
import TestDouble.Proofs.MethodTables.Order
import TestDouble.Proofs.MethodTables.Entries
import TestDouble.Proofs.MethodTables.Views
import TestDouble.Proofs.MethodTables.LaxerRules
import TestDouble.Proofs.Resolution.Appended
import TestDouble.Proofs.Fingerprint.Parts
import TestDouble.Proofs.Fingerprint.Reuse
import TestDouble.Proofs.Fingerprint.Listing
import TestDouble.Proofs.Fingerprint.Stability
import TestDouble.Proofs.Fingerprint.Delimited
import TestDouble.Proofs.Fingerprint.TotalOrder
import TestDouble.Proofs.Classified.Placement
import TestDouble.Proofs.Classified.Interleaving
import TestDouble.Proofs.Config.Nearest
import TestDouble.Proofs.Builder.Changes
import TestDouble.Proofs.Builder.Calls
import TestDouble.Proofs.Builder.Soundness
import TestDouble.Proofs.Builder.Finalized
import TestDouble.Proofs.Builder.Faults
import TestDouble.Proofs.Builder.Refusals
import TestDouble.Proofs.Classified.Outcome
import TestDouble.Proofs.Builder.AddedTypes
import TestDouble.Proofs.Builder.Batch
import TestDouble.Proofs.Builder.Draws
import TestDouble.Proofs.Builder.DefaultNames
import TestDouble.Proofs.Builder.Sessions
import TestDouble.Proofs.Registry.OwnName
import TestDouble.Proofs.Identifier.Segments
import TestDouble.Proofs.Identifier.LetterCase
import TestDouble.Proofs.Builder.ExplicitName
import TestDouble.Proofs.Builder.References
import TestDouble.Proofs.Label.LegalNames
import TestDouble.Proofs.Descriptor.Spelling
import TestDouble.Proofs.Descriptor.ReadBack
import TestDouble.Proofs.Json.ReadBack
