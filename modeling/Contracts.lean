import Contracts.Keyed
import Contracts.Label
import Contracts.TypeName
import Contracts.Signature
import Contracts.Interface
import Contracts.Member
import Contracts.Violation
import Contracts.Options
import Contracts.Event
import Contracts.Event.Text
import Contracts.Candidate
import Contracts.Class
import Contracts.Graph
import Contracts.Resolve
import Contracts.Check
import Contracts.Registry.Basic
import Contracts.Registry.Register
import Contracts.Text.Unprintable
import Contracts.Text.Extender
import Contracts.Text.Quoted
import Contracts.Text.Hex
import Contracts.Decimal.Shortest
import Contracts.Decimal.Style
import Contracts.Datum.Basic
import Contracts.Datum.Range
import Contracts.Datum.Mismatch
import Contracts.Datum.Read
import Contracts.Manifest.Read
import Contracts.Manifest.Write
import Contracts.Json.Number
import Contracts.Json.Token
import Contracts.Json.Reader
import Contracts.Json.Writer
import Contracts.Toml.Text
import Contracts.Toml.Number
import Contracts.Toml.Moment
import Contracts.Toml.Token
import Contracts.Toml.Table
import Contracts.Toml.Value
import Contracts.Toml.Document
import Contracts.FileTree
import Contracts.Config.Basic
import Contracts.Config.Read
import Contracts.Config.Load
import Contracts.Proofs.Text.Order
import Contracts.Proofs.Member
import Contracts.Proofs.Declared
import Contracts.Proofs.Lookup
import Contracts.Proofs.Lookup.Log
import Contracts.Proofs.Lookup.Loop
import Contracts.Proofs.Lookup.Nearest
import Contracts.Proofs.Lookup.Finite
import Contracts.Proofs.Lookup.Sufficient
import Contracts.Proofs.Limits
import Contracts.Proofs.Raised
import Contracts.Proofs.Requirements
import Contracts.Proofs.Position
import Contracts.Proofs.Pull
import Contracts.Proofs.Modes
import Contracts.Proofs.Log
import Contracts.Proofs.Messages
import Contracts.Proofs.Bisimulation
import Contracts.Proofs.Visible
import Contracts.Proofs.Subclass
import Contracts.Proofs.Growing
import Contracts.Proofs.Registry.Reach
import Contracts.Proofs.Registry.Run
import Contracts.Proofs.Registry.Chain
import Contracts.Proofs.Registry.Climb
import Contracts.Proofs.Registry.Refusal
import Contracts.Proofs.Registry.Growth
import Contracts.Proofs.Registry.Batch
import Contracts.Proofs.Registry.Permanence
import Contracts.Proofs.Registry.Hierarchy
import Contracts.Proofs.Registry.Admission
import Contracts.Proofs.Registry.Depth
import Contracts.Proofs.Registry.Dangling
import Contracts.Proofs.Json.Text
import Contracts.Proofs.Json.Tree
import Contracts.Proofs.Toml.Token
import Contracts.Proofs.Toml.Value
import Contracts.Proofs.Toml.Table
import Contracts.Proofs.Toml.Document
import Contracts.Proofs.Read
import Contracts.Proofs.Values
import Contracts.Proofs.Fields
import Contracts.Proofs.Skipped
import Contracts.Proofs.Manifest.Layout
import Contracts.Proofs.Manifest.Spelling
import Contracts.Proofs.Manifest.RoundTrip
import Contracts.Proofs.Manifest.Formats
import Contracts.Proofs.Manifest.Agreement
import Contracts.Proofs.Manifest.Acceptance
import Contracts.Proofs.Path
import Contracts.Proofs.Config.Given
import Contracts.Proofs.Config.Padding
import Contracts.Proofs.Config.Outcome
import Contracts.Proofs.Config.Selection
import Contracts.Proofs.Config.Loading
import Contracts.Proofs.Config.Warnings
