import RingRouting.Address
import RingRouting.Cluster.Basic
import RingRouting.Cluster.Builder
import RingRouting.Cluster.Config
import RingRouting.Cluster.Document
import RingRouting.Cluster.Plan
import RingRouting.Column.Binary
import RingRouting.Column.Decoding
import RingRouting.Column.Encoding
import RingRouting.Column.Type
import RingRouting.Column.Value
import RingRouting.Column.Vint
import RingRouting.Hash.Md5
import RingRouting.Hash.Murmur3
import RingRouting.Network.Calls
import RingRouting.Network.Connection
import RingRouting.Network.EndpointPools
import RingRouting.Network.Pool
import RingRouting.Octets
import RingRouting.PartitionKey
import RingRouting.Partitioner
import RingRouting.Policy.Activator
import RingRouting.Policy.Capability
import RingRouting.Policy.Custom
import RingRouting.Policy.Registry
import RingRouting.Random.Draw
import RingRouting.Random.Pcg32
import RingRouting.Session.Basic
import RingRouting.Session.Host
import RingRouting.Session.Step
import RingRouting.Session.Transport
import RingRouting.Snitch
import RingRouting.Strategy
import RingRouting.Text.AddressText
import RingRouting.Text.Blank
import RingRouting.Text.Outline
import RingRouting.Text.Quoted
import RingRouting.Text.Shapeless
import RingRouting.Text.Utf8
import RingRouting.Token
import RingRouting.Topology.ClusterView
import RingRouting.Topology.Peer
import RingRouting.Topology.Snapshot
import RingRouting.Proofs.Cluster.Configuration
import RingRouting.Proofs.Cluster.Connecting
import RingRouting.Proofs.Cluster.Conservation
import RingRouting.Proofs.Cluster.Coverage
import RingRouting.Proofs.Cluster.Drawing
import RingRouting.Proofs.Cluster.Failing
import RingRouting.Proofs.Cluster.Growth
import RingRouting.Proofs.Cluster.History
import RingRouting.Proofs.Cluster.Order
import RingRouting.Proofs.Cluster.Planning
import RingRouting.Proofs.Cluster.Proximity
import RingRouting.Proofs.Cluster.Refreshing
import RingRouting.Proofs.Cluster.Reproducing
import RingRouting.Proofs.Cluster.Settings
import RingRouting.Proofs.Cluster.Soundness
import RingRouting.Proofs.Cluster.Steps
import RingRouting.Proofs.Cluster.Waiting
import RingRouting.Proofs.Column.Canonical
import RingRouting.Proofs.Column.Grammar
import RingRouting.Proofs.Column.Integers
import RingRouting.Proofs.Column.RoundTrip
import RingRouting.Proofs.Column.Rows
import RingRouting.Proofs.Column.Vint
import RingRouting.Proofs.Column.VintDigits
import RingRouting.Proofs.Column.VintForms
import RingRouting.Proofs.Column.VintWords
import RingRouting.Proofs.Hash.Blocks
import RingRouting.Proofs.Hash.Pieces
import RingRouting.Proofs.Hash.Ranges
import RingRouting.Proofs.Hash.Reference
import RingRouting.Proofs.Key.Composite
import RingRouting.Proofs.Key.Layout
import RingRouting.Proofs.Key.Nothing
import RingRouting.Proofs.Key.Refusal
import RingRouting.Proofs.Network.CallSteps
import RingRouting.Proofs.Network.Disposing
import RingRouting.Proofs.Network.Following
import RingRouting.Proofs.Network.Ledger
import RingRouting.Proofs.Network.Mapping
import RingRouting.Proofs.Network.Opening
import RingRouting.Proofs.Network.PoolHistory
import RingRouting.Proofs.Network.PoolReuse
import RingRouting.Proofs.Network.PoolSafety
import RingRouting.Proofs.Network.PoolSteps
import RingRouting.Proofs.Network.Standing
import RingRouting.Proofs.Network.ZeroCapacity
import RingRouting.Proofs.Planning.Choices
import RingRouting.Proofs.Planning.Containment
import RingRouting.Proofs.Planning.Diagnosis
import RingRouting.Proofs.Planning.Factories
import RingRouting.Proofs.Planning.Names
import RingRouting.Proofs.Planning.Partitioners
import RingRouting.Proofs.Planning.Questions
import RingRouting.Proofs.Planning.Ranking
import RingRouting.Proofs.Planning.Registration
import RingRouting.Proofs.Planning.Rotation
import RingRouting.Proofs.Planning.Tiers
import RingRouting.Proofs.Planning.Walk
import RingRouting.Proofs.Repetition
import RingRouting.Proofs.Results
import RingRouting.Proofs.Sorting
import RingRouting.Proofs.Text.Utf8
import RingRouting.Proofs.Topology.Identity
import RingRouting.Proofs.Topology.Joining
import RingRouting.Proofs.Topology.Listing
import RingRouting.Proofs.Topology.Members
import RingRouting.Proofs.Topology.Replicas
import RingRouting.Proofs.Topology.Reports
import RingRouting.Proofs.Topology.Ring
