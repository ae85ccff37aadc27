import RingRouting.Address

/-!
# Configuration

Policies are named, not built: their names are resolved when the cluster is.  An
empty name leaves a policy out.

Main definitions:

- `ClusterConfig`: everything a cluster is configured with, with its defaults.
-/

namespace RingRouting

/-- How many distinct replicas own each token: at least one.  Room for that many is set aside
whenever replicas are looked for, so a factor is taken to be one for which there is room; what
comes of a factor that exceeds memory is not described here. -/
structure ReplicationFactor where
  count : Nat
  count_pos : 0 < count

/-- The number as a replication factor, unless it is zero. -/
def ReplicationFactor.ofNat? (n : Nat) : Option ReplicationFactor :=
  if h : 0 < n then some ⟨n, h⟩ else none

/-- The pool policy of every endpoint. -/
structure PoolConfig where
  policy : String
  capacity : Nat

/-- Keep up to eight connections. -/
def PoolConfig.default : PoolConfig :=
  ⟨"BoundedPool", 8⟩

/-- Everything a cluster is configured with. -/
structure ClusterConfig where
  partitioner : String
  snitch : String
  strategy : String
  pool : PoolConfig
  /-- The address that proximity is measured from. -/
  origin : Option Address
  replicationFactor : ReplicationFactor
  /-- The seed of random strategies. -/
  strategySeed : Option UInt64

/-- Murmur3 tokens, no ranking, random picks among three replicas. -/
def ClusterConfig.default : ClusterConfig where
  partitioner := "Murmur3Partitioner"
  snitch := ""
  strategy := "RandomStrategy"
  pool := .default
  origin := none
  replicationFactor := ⟨3, by decide⟩
  strategySeed := none

end RingRouting
