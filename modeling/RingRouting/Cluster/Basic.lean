import RingRouting.Cluster.Config
import RingRouting.Cluster.Plan
import RingRouting.Network.EndpointPools

/-!
# Clusters

A cluster routes partition keys to the nodes that hold their rows.  It knows how
tokens are computed, the current view with the snitch built from it, how strategies
are built, and the pools of the endpoints.

Views and snitches are published together, and each publication has a version, by
which a call that waited can tell whether the view it read is still the current one.

Main definitions:

- `Cluster.plan`: where requests for a key should go.
- `Cluster.startConnect`: gets a connection to a replica of a key.
- `Cluster.startRefresh`: replaces the view.
- `Cluster.complete`: lets a call that waits run on.
-/

namespace RingRouting

/-! ## The parts of a cluster -/

/-- A published view, with the snitch built from it. -/
structure Topology where
  version : Nat
  view : ClusterView
  snitch : Option Snitch

/-- What a call on the pools of a cluster is for. -/
inductive Purpose where
  /-- The caller asked for the call itself. -/
  | direct
  /-- A connection to a replica of a key; the version and the endpoint are those of
  the attempt under way. -/
  | connect (key : PartitionKey) (version : Nat) (endpoint : Address)
  /-- The end of a refresh. -/
  | refresh

/-- Refreshes that wait for each other.  They are let in one at a time, in the order
in which they came. -/
structure RefreshQueue where
  /-- Whether a refresh is under way, or has been let in. -/
  busy : Bool
  /-- The refresh that has been let in and has not begun. -/
  admitted : Option (CallId × ClusterView)
  /-- Those that wait, first come first. -/
  waiting : List (CallId × ClusterView)

/-- Nothing is being refreshed. -/
def RefreshQueue.idle : RefreshQueue :=
  ⟨false, none, []⟩

/-- Routes partition keys to the nodes that hold their rows. -/
structure Cluster where
  partitioner : Partitioner
  snitchFactory : Option (Factory SnitchArgs Snitch)
  strategyFactory : Option (Factory StrategyArgs Strategy)
  origin : Option Address
  replicationFactor : ReplicationFactor
  /-- Seeds every strategy that is built, where a seed is configured. -/
  seeds : Option Pcg32
  /-- Random words for strategies without a seed: a stream for each one built. -/
  entropy : Nat → Nat → UInt32
  /-- How many strategies were built by the factory. -/
  strategiesBuilt : Nat
  topology : Topology
  pools : EndpointPools Purpose
  refreshes : RefreshQueue

/-- A connection lent for a routed request. -/
structure Lease where
  endpoint : Address
  connection : Connection
  pool : PoolId
deriving DecidableEq

/-- The lease as a record. -/
def Lease.outline (lease : Lease) : String :=
  Outline.record "LeasedConnection" [
    Outline.field "endpoint" lease.endpoint.toText,
    Outline.field "connection" lease.connection.outline]

/-- How a call on a cluster ends. -/
inductive Outcome where
  /-- A pool lent a connection to the one who asked it. -/
  | lent (pool : PoolId) (connection : Connection)
  /-- A pool lent none. -/
  | unlent (e : PoolError)
  /-- A connection to a replica was lent. -/
  | leased (lease : Lease)
  /-- No connection to a replica could be had. -/
  | unrouted (e : RouteError)
  /-- The view was replaced. -/
  | refreshed
  /-- The view could not be replaced. -/
  | unrefreshed (e : ConfigurationError)
  /-- The call did what it was for. -/
  | done
deriving DecidableEq

/-- The outcome of a call that was asked for itself. -/
def Outcome.ofPools : PoolOutcome → Outcome
  | .lent pool connection => lent pool connection
  | .failed e => unlent e
  | .done => done

/-- What a step of a cluster brought about: requests in order, and ended calls. -/
structure ClusterProgress where
  requests : List Request
  finished : List (CallId × Outcome)

namespace ClusterProgress

/-- A step that asks and ends nothing. -/
def none : ClusterProgress :=
  ⟨[], []⟩

/-- A step that ends a call. -/
def finish (call : CallId) (outcome : Outcome) : ClusterProgress :=
  ⟨[], [(call, outcome)]⟩

/-- A step on pools alone, all of whose calls were asked for themselves. -/
def ofPools (progress : Progress Purpose) : ClusterProgress :=
  ⟨progress.requests, progress.finished.map fun ended => (ended.call, .ofPools ended.outcome)⟩

/-- One step after another. -/
def append (first second : ClusterProgress) : ClusterProgress :=
  ⟨first.requests ++ second.requests, first.finished ++ second.finished⟩

end ClusterProgress

namespace Cluster

/-! ## Planning -/

/-- Builds the topology for a view. -/
def buildTopology (cluster : Cluster) (view : ClusterView) :
    Except ConfigurationError Topology :=
  let version := cluster.topology.version + 1
  match cluster.snitchFactory with
  | none => .ok ⟨version, view, none⟩
  | some factory =>
    match factory ⟨some view⟩ with
    | .ok snitch => .ok ⟨version, view, some snitch⟩
    | .error e => .error e

/-- The seed of the next strategy. -/
def nextSeed (cluster : Cluster) : Option UInt64 × Cluster :=
  match cluster.seeds with
  | none => (none, cluster)
  | some generator =>
    let (seed, generator) := generator.next64
    (some seed, { cluster with seeds := some generator })

/-- Builds a strategy over ranked replicas.  Without a configured strategy they are
tried in turn, and no seed is used. -/
def buildStrategy (cluster : Cluster) (snitch : Option Snitch) (ranked : List Address) :
    Except ConfigurationError Strategy × Cluster :=
  match cluster.strategyFactory with
  | none => (.ok (.rotation ranked), cluster)
  | some factory =>
    let (seed, cluster) := cluster.nextSeed
    let words := cluster.entropy cluster.strategiesBuilt
    let cluster := { cluster with strategiesBuilt := cluster.strategiesBuilt + 1 }
    (factory ⟨ranked, snitch, cluster.origin, seed, words⟩, cluster)

/-- The token of a key. -/
def token (cluster : Cluster) (key : PartitionKey) : Except RouteError Token :=
  match cluster.partitioner.token key with
  | .error e => .error (.key e)
  | .ok none => .error .noToken
  | .ok (some token) => .ok token

/-- The addresses of a token's replicas in ring order. -/
def replicas (cluster : Cluster) (token : Token) : List Address :=
  (cluster.topology.view.replicas token cluster.replicationFactor.count).map Peer.address

/-- Replicas from nearest to farthest, where there is a snitch and an address to
measure from. -/
def rank (cluster : Cluster) (replicas : List Address) : List Address :=
  match cluster.topology.snitch, cluster.origin with
  | some snitch, some origin => snitch.sortedByProximity origin replicas
  | _, _ => replicas

/-- Decides where requests for a key should go. -/
def plan (cluster : Cluster) (key : PartitionKey) : Except RouteError Plan × Cluster :=
  match cluster.token key with
  | .error e => (.error e, cluster)
  | .ok token =>
    let replicas := cluster.replicas token
    if replicas.isEmpty then (.error (.noReplicas token), cluster)
    else
      let ranked := cluster.rank replicas
      match cluster.buildStrategy cluster.topology.snitch ranked with
      | (.error e, cluster) => (.error (.configuration e), cluster)
      | (.ok strategy, cluster) => (.ok ⟨token, ranked, strategy⟩, cluster)

/-! ## Connecting -/

/-- The cluster with another state of its network. -/
def setNetwork (cluster : Cluster) (network : Network Purpose) : Cluster :=
  { cluster with pools := { cluster.pools with network := network } }

/-- Ends a call that got, or did not get, a connection to `endpoint`. -/
def concludeConnect (call : CallId) (endpoint : Address) : PoolOutcome → ClusterProgress
  | .lent pool connection => .finish call (.leased ⟨endpoint, connection, pool⟩)
  | .failed e => .finish call (.unrouted (.pool e))
  | .done => .finish call .done

/-- Plans a request, picks an endpoint and asks its pool for a connection.  Where
that ends at once, it ends the call, for the view cannot have changed since. -/
def attempt (cluster : Cluster) (call : CallId) (key : PartitionKey) :
    Cluster × ClusterProgress :=
  match cluster.plan key with
  | (.error e, cluster) => (cluster, .finish call (.unrouted e))
  | (.ok plan, cluster) =>
    match plan.pick with
    | (.error e, _) => (cluster, .finish call (.unrouted e))
    | (.ok endpoint, _) =>
      match cluster.pools.get endpoint with
      | .error e => (cluster, .finish call (.unrouted (.pool e)))
      | .ok id =>
        let purpose := Purpose.connect key cluster.topology.version endpoint
        let (network, progress) := cluster.pools.network.acquireAs call purpose id
        (cluster.setNetwork network,
          progress.finished.foldl
            (fun after ended => after.append (concludeConnect call endpoint ended.outcome))
            ⟨progress.requests, []⟩)

/-- Whether a connect call that got no connection is planned anew: its pool is gone,
and so is the view in which the pool was found. -/
def replans (cluster : Cluster) (version : Nat) (e : PoolError) : Bool :=
  e.poolIsGone && version != cluster.topology.version

/-- Takes up a connect call whose pool has answered. -/
def resumeConnect (cluster : Cluster) (call : CallId) (key : PartitionKey) (version : Nat)
    (endpoint : Address) (outcome : PoolOutcome) : Cluster × ClusterProgress :=
  match outcome with
  | .failed e =>
    if cluster.replans version e then cluster.attempt call key
    else (cluster, concludeConnect call endpoint (.failed e))
  | outcome => (cluster, concludeConnect call endpoint outcome)

/-! ## Refreshing -/

/-- Ends a refresh and lets the next one in. -/
def endRefresh (cluster : Cluster) (call : CallId) (outcome : Outcome) :
    Cluster × ClusterProgress :=
  match cluster.refreshes.waiting with
  | [] => ({ cluster with refreshes := .idle }, .finish call outcome)
  | next :: waiting =>
    ({ cluster with refreshes := ⟨true, some next, waiting⟩ },
      ⟨[.turn next.1], [(call, outcome)]⟩)

/-- Makes the topology for a view and the pools of its new members, and publishes
the view.  A pool that cannot be made leaves the view unpublished; the pools made
before it stay. -/
def publish (cluster : Cluster) (view : ClusterView) :
    Except ConfigurationError Unit × Cluster :=
  match cluster.buildTopology view with
  | .error e => (.error e, cluster)
  | .ok topology =>
    match cluster.pools.openMissing view with
    | (.error e, pools) => (.error e, { cluster with pools := pools })
    | (.ok _, pools) => (.ok (), { cluster with pools := pools, topology := topology })

/-- Replaces the view and disposes the pools of endpoints that left. -/
def runRefresh (cluster : Cluster) (call : CallId) (view : ClusterView) :
    Cluster × ClusterProgress :=
  match cluster.publish view with
  | (.error e, cluster) => cluster.endRefresh call (.unrefreshed e)
  | (.ok _, cluster) =>
    let (pools, progress) := cluster.pools.retireAbsentAs call .refresh view
    let cluster := { cluster with pools := pools }
    if progress.finished.isEmpty then (cluster, ⟨progress.requests, []⟩)
    else cluster.endRefresh call .refreshed

/-! ## Calls -/

/-- Takes up what ended on the pools. -/
def absorb (cluster : Cluster) (ended : Finished Purpose) : Cluster × ClusterProgress :=
  match ended.purpose with
  | .direct => (cluster, .finish ended.call (.ofPools ended.outcome))
  | .connect key version endpoint =>
    cluster.resumeConnect ended.call key version endpoint ended.outcome
  | .refresh => cluster.endRefresh ended.call .refreshed

/-- Takes up all that a step brought about on the pools. -/
def absorbAll (cluster : Cluster) (progress : Progress Purpose) : Cluster × ClusterProgress :=
  progress.finished.foldl
    (fun (cluster, after) ended =>
      let (cluster, more) := cluster.absorb ended
      (cluster, after.append more))
    (cluster, ⟨progress.requests, []⟩)

/-- Numbers a new call. -/
def newCall (cluster : Cluster) : CallId × Cluster :=
  let (call, pools) := cluster.pools.newCall
  (call, { cluster with pools := pools })

/-- Starts a call that gets a connection to a replica of a key. -/
def startConnect (cluster : Cluster) (key : PartitionKey) :
    CallId × Cluster × ClusterProgress :=
  let (call, cluster) := cluster.newCall
  (call, cluster.attempt call key)

/-- Starts a call that replaces the view by what a refresh reported. -/
def startRefresh (cluster : Cluster) (reports : List Peer) :
    CallId × Cluster × ClusterProgress :=
  let view := ClusterView.ofReports reports
  let (call, cluster) := cluster.newCall
  let refreshes := cluster.refreshes
  if refreshes.busy then
    (call, { cluster with
      refreshes := { refreshes with waiting := refreshes.waiting ++ [(call, view)] } }, .none)
  else
    (call, { cluster with refreshes := { refreshes with busy := true } }.runRefresh call view)

/-- Starts a call that disposes all pools. -/
def startShutdown (cluster : Cluster) : CallId × Cluster × ClusterProgress :=
  let (call, pools, progress) := cluster.pools.disposeAll .direct
  (call, { cluster with pools := pools }.absorbAll progress)

/-- Starts a call that gives a lent connection back to its pool. -/
def startRelease (cluster : Cluster) (pool : PoolId) (connection : Connection) :
    CallId × Cluster × ClusterProgress :=
  let (call, network, progress) := cluster.pools.network.release .direct pool connection
  (call, (cluster.setNetwork network).absorbAll progress)

/-- Lets a call that waits run on: one whose turn it is, or one that an answer of the
transport is for. -/
def complete (cluster : Cluster) (completion : Completion) : Cluster × ClusterProgress :=
  match completion with
  | .turn call =>
    match cluster.refreshes.admitted with
    | some (admitted, view) =>
      if admitted = call then
        let refreshes := { cluster.refreshes with admitted := none }
        { cluster with refreshes := refreshes }.runRefresh call view
      else (cluster, .none)
    | none => (cluster, .none)
  | completion =>
    let (network, progress) := cluster.pools.network.complete completion
    (cluster.setNetwork network).absorbAll progress

/-! ## Outline -/

/-- The topology as a record. -/
def topologyOutline (topology : Topology) : String :=
  Outline.record "Topology" [
    Outline.field "state" topology.view.outline,
    Outline.field "snitch" (Outline.option (topology.snitch.map Snitch.outline))]

/-- The cluster as a record. -/
def outline (cluster : Cluster) : String :=
  Outline.record "Cluster" [
    Outline.field "partitioner" cluster.partitioner.name,
    Outline.field "local_address" (Outline.option (cluster.origin.map Address.toText)),
    Outline.field "replication_factor" (toString cluster.replicationFactor.count),
    Outline.field "topology" (topologyOutline cluster.topology),
    Outline.field "pools" cluster.pools.outline,
    ".."]

end Cluster
end RingRouting
