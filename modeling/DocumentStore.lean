import DocumentStore.Datastore
import DocumentStore.Filter.Embedded
import DocumentStore.Settings.Connection
import DocumentStore.Settings.Logging
import DocumentStore.Proofs.Filter.Wire
import DocumentStore.Proofs.Plan.Selection
import DocumentStore.Proofs.Service.Decoding
import DocumentStore.Proofs.Value.Disjoint
import DocumentStore.Proofs.Entity.Written
import DocumentStore.Proofs.Service.Saved
import DocumentStore.Proofs.Collection.InPlace
import DocumentStore.Proofs.Service.NestedValues
import DocumentStore.Proofs.Service.Commutation
import DocumentStore.Proofs.Collection.Runs
import DocumentStore.Proofs.Service.Interleaving
import DocumentStore.Proofs.Filter.Acceptance
import DocumentStore.Proofs.Entity.Plain
import DocumentStore.Proofs.Entity.Amended
import DocumentStore.Proofs.Service.Agreement
import DocumentStore.Proofs.Filter.Embedded
import DocumentStore.Proofs.Value.Obstacle
import DocumentStore.Proofs.Service.FailedWrites
import DocumentStore.Proofs.Double.Integers
import DocumentStore.Proofs.Filter.IntegerComparison
import DocumentStore.Proofs.Value.Frame
import DocumentStore.Proofs.Service.Deletion
import DocumentStore.Proofs.Query.Found
import DocumentStore.Proofs.Service.Pages
import DocumentStore.Proofs.Value.Removal
import DocumentStore.Proofs.Filter.NumericComparison
import DocumentStore.Proofs.Filter.Lookup
import DocumentStore.Proofs.Query.Reachability
import DocumentStore.Proofs.Filter.Area
import DocumentStore.Proofs.Filter.Positional
import DocumentStore.Proofs.Identifier.Listed
