import MibLinker.Clients
import MibLinker.Graph.Lemmas
import MibLinker.Node.Rendering
import MibLinker.Registry.Composition
import MibLinker.Release
import MibLinker.Standard
import MibLinker.Proofs.Moment
import MibLinker.Proofs.Tables
import MibLinker.Proofs.Chronicle
import MibLinker.Proofs.Permanence
import MibLinker.Proofs.Attempts
import MibLinker.Proofs.Retry
import MibLinker.Proofs.Blueprint.Basic
import MibLinker.Proofs.Blueprint.OnDemand
import MibLinker.Proofs.Answers
import MibLinker.Proofs.Blueprint.Agreement
import MibLinker.Proofs.Paths
import MibLinker.Proofs.Graph.Search
import MibLinker.Proofs.Graph.Counts
import MibLinker.Proofs.Graph.Placement
import MibLinker.Proofs.Building.Basic
import MibLinker.Proofs.Building.Accrual
import MibLinker.Proofs.Building.Growth
import MibLinker.Proofs.LoadOrder
import MibLinker.Proofs.Plan.Basic
import MibLinker.Proofs.Plan.Blame
import MibLinker.Proofs.Blueprint.Contents
import MibLinker.Proofs.Blueprint.Commutation
import MibLinker.Proofs.Blueprint.Replay
import MibLinker.Proofs.Resolution
import MibLinker.Proofs.Course
import MibLinker.Proofs.Nesting
import MibLinker.Proofs.LoadStack
import MibLinker.Proofs.States
import MibLinker.Proofs.Coverage
import MibLinker.Proofs.Withdrawal
import MibLinker.Proofs.Machine.Adequacy
import MibLinker.Proofs.Machine.Bounds
import MibLinker.Proofs.Settlement
import MibLinker.Proofs.Sharing
import MibLinker.Proofs.Graph.Changes
import MibLinker.Proofs.Machine.Bodies
import MibLinker.Proofs.Atomicity
import MibLinker.Proofs.Building.Return
import MibLinker.Proofs.Acyclicity
import MibLinker.Proofs.Plan.Depth
import MibLinker.Proofs.Lookup
import MibLinker.Proofs.Graph.Reordering
import MibLinker.Proofs.Republication
import MibLinker.Proofs.Graph.History
import MibLinker.Proofs.Chaining
import MibLinker.Proofs.SystemGroup
import MibLinker.Proofs.Numerals
import MibLinker.Proofs.DottedNotation
import MibLinker.Proofs.DottedGrammar
import MibLinker.Proofs.Subtree
import MibLinker.Proofs.CanonicalText
import MibLinker.Proofs.Brackets
import MibLinker.Proofs.Machine.LoadLog
import MibLinker.Proofs.Overlay
import MibLinker.Proofs.Graph.Walk
import MibLinker.Proofs.Graph.Countdown
