import RingRouting.Cluster.Basic

/-!
# Building clusters

A builder collects a configuration, the policies that may be named in it, and the
peers that are known from the start.  Names are resolved when the cluster is built;
the snitch and the strategy are built once for trial over an empty view, so that a
policy that refuses its arguments is found out before anything is routed.

Main definitions:

- `ClusterBuilder.set`: one more setting.
- `ClusterBuilder.build`: the cluster, or what its configuration lacks.
-/

namespace RingRouting

/-- A configuration in the making. -/
structure ClusterBuilder where
  config : ClusterConfig
  activator : Activator
  knownPeers : List Peer

/-- One setting of a builder. -/
inductive Setting where
  | partitioner (name : String)
  | snitch (name : String)
  | strategy (name : String)
  | poolPolicy (name : String)
  | poolCapacity (capacity : Nat)
  | origin (address : Address)
  | replicationFactor (factor : ReplicationFactor)
  | strategySeed (seed : UInt64)
  /-- Peers that join those already known. -/
  | knownPeers (peers : List Peer)

namespace ClusterBuilder

/-- A builder that starts from a configuration. -/
def ofConfig (config : ClusterConfig) (activator : Activator) : ClusterBuilder :=
  ⟨config, activator, []⟩

/-- The builder with one more setting. -/
def set (builder : ClusterBuilder) (setting : Setting) : ClusterBuilder :=
  let config := builder.config
  match setting with
  | .partitioner name => { builder with config := { config with partitioner := name } }
  | .snitch name => { builder with config := { config with snitch := name } }
  | .strategy name => { builder with config := { config with strategy := name } }
  | .poolPolicy name =>
    { builder with config := { config with pool := { config.pool with policy := name } } }
  | .poolCapacity capacity =>
    { builder with config := { config with pool := { config.pool with capacity := capacity } } }
  | .origin address => { builder with config := { config with origin := some address } }
  | .replicationFactor factor =>
    { builder with config := { config with replicationFactor := factor } }
  | .strategySeed seed => { builder with config := { config with strategySeed := some seed } }
  | .knownPeers peers => { builder with knownPeers := builder.knownPeers ++ peers }

/-- The builder with several settings, in order. -/
def setAll (builder : ClusterBuilder) (settings : List Setting) : ClusterBuilder :=
  settings.foldl set builder

/-- A cluster over the empty view, with its policies tried out. -/
def tryOut (cluster : Cluster) : Except ConfigurationError Cluster := do
  let topology ← cluster.buildTopology .empty
  let (strategy, cluster) := cluster.buildStrategy topology.snitch []
  let _ ← strategy
  return { cluster with topology := topology }

/-- Resolves every configured policy and builds the cluster; `entropy` gives the
random words of strategies without a seed. -/
def build (builder : ClusterBuilder) (entropy : Nat → Nat → UInt32) :
    Except ConfigurationError Cluster := do
  let config := builder.config
  let partitioner ← builder.activator.createPartitioner config.partitioner
  let snitchFactory ← builder.activator.resolveSnitch config.snitch
  let strategyFactory ← builder.activator.resolveStrategy config.strategy
  let poolFactory ← builder.activator.resolvePool config.pool.policy
  let pools :=
    match poolFactory with
    | some factory => .new config.pool.capacity factory
    | none => .bounded config.pool.capacity
  let cluster ← tryOut {
    partitioner := partitioner.getD .default
    snitchFactory := snitchFactory
    strategyFactory := strategyFactory
    origin := config.origin
    replicationFactor := config.replicationFactor
    seeds := config.strategySeed.map Pcg32.ofSeed
    entropy := entropy
    strategiesBuilt := 0
    topology := ⟨0, .empty, none⟩
    pools := pools
    refreshes := .idle }
  if builder.knownPeers.isEmpty then return cluster
  else
    match cluster.publish (.ofReports builder.knownPeers) with
    | (.error e, _) => throw e
    | (.ok _, cluster) => return cluster

end ClusterBuilder
end RingRouting
