import ClassSymbols.Dump.Encode
import ClassSymbols.LogSettings
import ClassSymbols.Main
import ClassSymbols.Tree.Delegation
import ClassSymbols.Proofs.Data.Grouping
import ClassSymbols.Proofs.Data.Traversal
import ClassSymbols.Proofs.Graph.Closure
import ClassSymbols.Proofs.Graph.Components
import ClassSymbols.Proofs.Overrides.Inheritance
import ClassSymbols.Proofs.Overrides.Buckets
import ClassSymbols.Proofs.Overrides.Additions
import ClassSymbols.Proofs.Overrides.Events
import ClassSymbols.Proofs.Overrides.Clusters
import ClassSymbols.Proofs.Overrides.Outcome
import ClassSymbols.Proofs.Overrides.Accounting
import ClassSymbols.Proofs.Data.Sequence
import ClassSymbols.Proofs.Resolution.Steps
import ClassSymbols.Proofs.Loading.Numbering
import ClassSymbols.Proofs.Loading.Members
import ClassSymbols.Proofs.Resolution.History
import ClassSymbols.Proofs.Resolution.Queries
import ClassSymbols.Proofs.Resolution.Coverage
import ClassSymbols.Proofs.Overrides.Instantiation
import ClassSymbols.Proofs.Overrides.Bridges
import ClassSymbols.Proofs.Resolution.Bridges
import ClassSymbols.Proofs.Scope.Renaming
import ClassSymbols.Proofs.Loading.Modules
import ClassSymbols.Proofs.Loading.Renaming
import ClassSymbols.Proofs.Data.Related
import ClassSymbols.Proofs.Overrides.Renaming
import ClassSymbols.Proofs.Overrides.RenamedRuns
import ClassSymbols.Proofs.Loading.Counterparts
import ClassSymbols.Proofs.Overrides.RenamedInheritance
import ClassSymbols.Proofs.Ty.Mentions
import ClassSymbols.Proofs.Overrides.RenamedComparisons
import ClassSymbols.Proofs.Resolution.Consults
import ClassSymbols.Proofs.Resolution.Matching
import ClassSymbols.Proofs.Resolution.Agreement
import ClassSymbols.Proofs.Resolution.Laziness
import ClassSymbols.Proofs.Overrides.Shapes
import ClassSymbols.Proofs.Overrides.Heads
import ClassSymbols.Proofs.Overrides.Clashes
import ClassSymbols.Proofs.Overrides.Storing
import ClassSymbols.Proofs.Resolution.Answers
import ClassSymbols.Proofs.Scope.Towers
import ClassSymbols.Proofs.Resolution.Cycles
import ClassSymbols.Proofs.Scope.Places
import ClassSymbols.Proofs.Store.Ownership
import ClassSymbols.Proofs.Store.Rooted
import ClassSymbols.Proofs.Loading.Additions
import ClassSymbols.Proofs.Loading.Runs
import ClassSymbols.Proofs.Resolution.Runs
import ClassSymbols.Proofs.Loading.Contexts
import ClassSymbols.Proofs.Loading.Atomicity
import ClassSymbols.Proofs.Runs.Changes
import ClassSymbols.Proofs.Runs.ClosedTypes
import ClassSymbols.Proofs.Runs.LazyMembers
import ClassSymbols.Proofs.Runs.Repetition
import ClassSymbols.Proofs.Loading.Registration
import ClassSymbols.Proofs.Dump.RoundTrip
import ClassSymbols.Proofs.Overrides.SupertypeOrder
import ClassSymbols.Proofs.Ascent.EntryPoints
import ClassSymbols.Proofs.Overrides.Copies
import ClassSymbols.Proofs.Scope.Unfolding
import ClassSymbols.Proofs.Loading.Rereading
import ClassSymbols.Proofs.Subtyping.PlainClasses
import ClassSymbols.Proofs.Subtyping.Instantiation
import ClassSymbols.Proofs.Subtyping.Transitivity
import ClassSymbols.Proofs.Table.ClassIds
import ClassSymbols.Proofs.Overrides.Unmaterialized
import ClassSymbols.Proofs.Overrides.Unmodified
import ClassSymbols.Proofs.Store.Containers
import ClassSymbols.Proofs.Runs.PathNames
import ClassSymbols.Proofs.Tree.Delegation
import ClassSymbols.Proofs.Scope.Depths
import ClassSymbols.Proofs.Text.Templates
import ClassSymbols.Proofs.Runs.Reports
import ClassSymbols.Proofs.Resolution.Success
import ClassSymbols.Proofs.Overrides.Listing
import ClassSymbols.Proofs.Resolution.MemberScopes
