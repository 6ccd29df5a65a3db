import TypedGraph.CommandLine
import TypedGraph.Entity.Graph
import TypedGraph.Entity.Id
import TypedGraph.Entity.Ref
import TypedGraph.Entity.View
import TypedGraph.Json.Basic
import TypedGraph.Json.Pointer
import TypedGraph.Json.Printer
import TypedGraph.Json.Reading
import TypedGraph.Json.Token
import TypedGraph.Main
import TypedGraph.Numeric.Binary64
import TypedGraph.Numeric.Shortest
import TypedGraph.OrderedMap
import TypedGraph.Proofs.Entity.Counters
import TypedGraph.Proofs.Json.Canonical
import TypedGraph.Proofs.Json.Texts
import TypedGraph.Proofs.Json.Tokens
import TypedGraph.Proofs.Schema.Grammar
import TypedGraph.Proofs.Schema.HiddenSubtypes
import TypedGraph.Proofs.Schema.Implication
import TypedGraph.Proofs.Schema.ImpliedChecks
import TypedGraph.Proofs.Schema.LeastFixpoint
import TypedGraph.Proofs.Schema.Preorder
import TypedGraph.Proofs.Store.Coherence
import TypedGraph.Proofs.Store.Creation
import TypedGraph.Proofs.Store.Edits
import TypedGraph.Proofs.Store.Independence
import TypedGraph.Proofs.Store.Minting
import TypedGraph.Proofs.Store.References
import TypedGraph.Proofs.Store.Reopening
import TypedGraph.Proofs.Store.RoundTrip
import TypedGraph.Proofs.Store.Runs
import TypedGraph.Proofs.Store.Typing
import TypedGraph.Proofs.Store.Updates
import TypedGraph.Proofs.Sync.Codec
import TypedGraph.Proofs.Sync.Dispatcher.Delivery
import TypedGraph.Proofs.Sync.Dispatcher.Slots
import TypedGraph.Proofs.Sync.Exchange
import TypedGraph.Proofs.Sync.History
import TypedGraph.Proofs.Sync.Order
import TypedGraph.Proofs.Sync.Progress
import TypedGraph.Proofs.Sync.Replies
import TypedGraph.Proofs.Sync.Sequential
import TypedGraph.Proofs.Sync.Serving
import TypedGraph.Proofs.Sync.Steps
import TypedGraph.Proofs.Validation.Appending
import TypedGraph.Proofs.Validation.Completeness
import TypedGraph.Proofs.Validation.Composition
import TypedGraph.Proofs.Validation.Diagnosis
import TypedGraph.Proofs.Validation.Extension
import TypedGraph.Proofs.Validation.Guidance
import TypedGraph.Proofs.Validation.InPlace
import TypedGraph.Proofs.Validation.Matching
import TypedGraph.Proofs.Validation.Recursion
import TypedGraph.Proofs.Validation.Reordering
import TypedGraph.Proofs.Validation.Soundness
import TypedGraph.Proofs.Validation.Termination
import TypedGraph.Proofs.Validation.Transactions
import TypedGraph.Quiescence
import TypedGraph.Report
import TypedGraph.Schema.Basic
import TypedGraph.Schema.Builder
import TypedGraph.Schema.Descriptor
import TypedGraph.Schema.Implication
import TypedGraph.Schema.Reading
import TypedGraph.Store
import TypedGraph.Store.History
import TypedGraph.StringSet
import TypedGraph.Sync.Action
import TypedGraph.Sync.Authority
import TypedGraph.Sync.Channel
import TypedGraph.Sync.Client
import TypedGraph.Sync.Dispatcher
import TypedGraph.Sync.Dispatcher.History
import TypedGraph.Sync.Dispatcher.Loop
import TypedGraph.Sync.Error
import TypedGraph.Sync.Message
import TypedGraph.Sync.Serving
import TypedGraph.Sync.Session
import TypedGraph.Text.Decimal
import TypedGraph.Text.Hexadecimal
import TypedGraph.Text.Printable
import TypedGraph.Text.Quoted
import TypedGraph.Validation.Assignment
import TypedGraph.Validation.Bindings
import TypedGraph.Validation.Calls
import TypedGraph.Validation.Conformance
import TypedGraph.Validation.Diagnosis
import TypedGraph.Validation.InPlace
import TypedGraph.Validation.Recursion
import TypedGraph.Validation.Search
import TypedGraph.Validation.Validator
import TypedGraph.Proofs.Schema.Declarations
