import RingRouting.Cluster.Basic

/-!
# Hosts

A session runs over a pool, over the pools of some endpoints, or over a cluster.
What they have in common is a network of pools, and calls that wait for answers.
-/

namespace RingRouting

/-- What a session runs over. -/
inductive Host where
  /-- A network with one pool. -/
  | single (network : Network Purpose)
  | byEndpoint (pools : EndpointPools Purpose)
  | clustered (cluster : Cluster)

namespace Host

/-- A single pool. -/
def ofPool (pool : Pool) : Host :=
  single ((Network.empty).addPool pool).2

/-! ## Parts -/

/-- The network of the host's pools. -/
def network : Host → Network Purpose
  | single network => network
  | byEndpoint pools => pools.network
  | clustered cluster => cluster.pools.network

/-- The host with another state of its network. -/
def setNetwork (network : Network Purpose) : Host → Host
  | single _ => single network
  | byEndpoint pools => byEndpoint { pools with network := network }
  | clustered cluster =>
    clustered { cluster with pools := { cluster.pools with network := network } }

/-- The host's pools by endpoint. -/
def endpointPools? : Host → Option (EndpointPools Purpose)
  | single _ => none
  | byEndpoint pools => some pools
  | clustered cluster => some cluster.pools

/-- The host with another state of its pools by endpoint. -/
def setEndpointPools (pools : EndpointPools Purpose) : Host → Host
  | single network => single network
  | byEndpoint _ => byEndpoint pools
  | clustered cluster => clustered { cluster with pools := pools }

/-- The host's cluster. -/
def cluster? : Host → Option Cluster
  | clustered cluster => some cluster
  | _ => none

/-! ## Calls -/

/-- Lets a call that waits run on. -/
def complete (host : Host) (completion : Completion) : Host × ClusterProgress :=
  match host with
  | single network =>
    let (network, progress) := network.complete completion
    (single network, .ofPools progress)
  | byEndpoint pools =>
    let (network, progress) := pools.network.complete completion
    (byEndpoint { pools with network := network }, .ofPools progress)
  | clustered cluster =>
    let (cluster, progress) := cluster.complete completion
    (clustered cluster, progress)

/-- The host after a call on its network was started. -/
def afterCall (host : Host) (started : CallId × Network Purpose × Progress Purpose) :
    CallId × Host × ClusterProgress :=
  (started.1, host.setNetwork started.2.1, .ofPools started.2.2)

/-- The host after a call on its pools by endpoint was started. -/
def afterPoolsCall (host : Host) (started : CallId × EndpointPools Purpose × Progress Purpose) :
    CallId × Host × ClusterProgress :=
  (started.1, host.setEndpointPools started.2.1, .ofPools started.2.2)

/-- The host after a call on its cluster was started. -/
def afterClusterCall (started : CallId × Cluster × ClusterProgress) :
    CallId × Host × ClusterProgress :=
  (started.1, clustered started.2.1, started.2.2)

/-- The host as a record: for a single pool the pool, else the host itself. -/
def outline : Host → String
  | single network => "".intercalate (network.pools.map Pool.outline)
  | byEndpoint pools => pools.outline
  | clustered cluster => cluster.outline

end Host
end RingRouting
