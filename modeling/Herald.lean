import Herald.Settings.Load
import Herald.Engine
import Herald.Value.Read
import Herald.Value.Render
import Herald.Proofs.Ancestors
import Herald.Proofs.Registry.Buckets
import Herald.Proofs.Registry.Resolution
import Herald.Proofs.Registry.Roll
import Herald.Proofs.Dispatch.Alike
import Herald.Proofs.Dispatch.Shares
import Herald.Proofs.Workers.Submission
import Herald.Proofs.Workers.Orders
import Herald.Proofs.Channels.Sets
import Herald.Proofs.Channels.Expressions
import Herald.Proofs.Pending.Noted
import Herald.Proofs.Pending.Once
import Herald.Proofs.Dispatch.Seclusion
import Herald.Proofs.Registry.Removal
import Herald.Proofs.Dispatch.Isolation
import Herald.Proofs.Event
import Herald.Proofs.Binding
import Herald.Proofs.Hierarchy
import Herald.Proofs.Registry.Numbering
import Herald.Proofs.Registry.Supertypes
import Herald.Proofs.Workers.Independence
import Herald.Proofs.Dispatch.Snapshot
import Herald.Proofs.Channels.Names
import Herald.Proofs.Registry.Routing
import Herald.Proofs.Declarations
import Herald.Proofs.Dispatch.Reported
import Herald.Proofs.Registry.Filling
import Herald.Proofs.Binding.Outcome
import Herald.Proofs.Binding.Growth
import Herald.Proofs.Pending.Handling
import Herald.Proofs.Pending.Groups
import Herald.Proofs.Ancestors.Search
import Herald.Proofs.Event.Lookup
import Herald.Proofs.Event.Fields
import Herald.Proofs.Workers.Parts
import Herald.Proofs.Settings.DefaultChannel
import Herald.Proofs.Settings.Counts
import Herald.Proofs.Settings.Overrides
import Herald.Proofs.Dispatch.Arguments
import Herald.Proofs.Registry.History
