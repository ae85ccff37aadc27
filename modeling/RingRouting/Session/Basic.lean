import RingRouting.Session.Step

/-!
# Sessions

A session runs steps one after another over a host and its transport.  After each
step every call runs until it is finished or waits.  The report of a step tells its
answer, the answers of earlier steps whose calls ended now, what the transport did,
and the state reached.

Main definitions:

- `Session.run`: the reports of a list of steps.
-/

namespace RingRouting

/-- A connection that is kept under a name. -/
structure Kept where
  pool : PoolId
  connection : Connection

/-- A step whose call has not ended; `name` is where its connection will be kept. -/
structure Pending where
  step : Nat
  name : Option String

/-- A session between two steps. -/
structure Session where
  host : Host
  transport : Transport
  connections : List (String × Kept)
  held : List (String × PoolId)
  plans : List (String × Plan)
  pending : List (CallId × Pending)

/-- The state that a report shows. -/
inductive StateReport where
  /-- The connections kept by the only pool, and whether it is disposed. -/
  | pool (idle : Nat) (disposed : Bool)
  /-- The endpoints that have pools, with the connections kept, by their texts. -/
  | pools (idle : List (Address × Nat))
  /-- The members of the current view, and the pools. -/
  | cluster (view : List Address) (idle : List (Address × Nat))

/-- What a step brought about. -/
structure Report where
  /-- The step's answer, unless its call waits. -/
  answer : Option Answer
  /-- The answers of earlier steps whose calls ended now, by step. -/
  late : List (Nat × Answer)
  opened : List Connection
  refused : List Address
  /-- The numbers of the connections closed, in order. -/
  closed : List Nat
  state : StateReport

/-- What is known once a step has run as far as it can without an answer of the
transport. -/
inductive Started where
  /-- The answer. -/
  | answered (answer : Answer)
  /-- A call was started; its connection will be kept under the name, if there is
  one. -/
  | called (call : CallId) (name : Option String)

namespace Session

/-- A session before its first step. -/
def new (host : Host) : Session :=
  ⟨host, .initial, [], [], [], []⟩

/-- Keeps something under a name, in the place of what was kept under it. -/
def keep {α : Type} (kept : List (String × α)) (name : String) (value : α) :
    List (String × α) :=
  (name, value) :: kept.filter fun entry => entry.1 != name

/-- Forgets what is kept under a name. -/
def forget {α : Type} (kept : List (String × α)) (name : String) : List (String × α) :=
  kept.filter fun entry => entry.1 != name

/-! ## Pools that steps are about -/

/-- The pool of an endpoint. -/
def endpointPool (session : Session) (endpoint : Address) : Except Answer PoolId :=
  match session.host.endpointPools? with
  | none => .error (.poolError (.noPool endpoint))
  | some pools => (pools.get endpoint).mapError .poolError

/-- The pool that a step is about. -/
def target (session : Session) : Target → Except Answer PoolId
  | .only => .ok 0
  | .held name =>
    match session.held.lookup name with
    | some id => .ok id
    | none => .error .notLeased
  | .endpoint address => session.endpointPool address

/-- The description of a pool.  Its capacity is told only of the one pool of a
session over a pool. -/
def describe (session : Session) (id : PoolId) : Answer :=
  match session.host.network.pools[id]? with
  | none => .notLeased
  | some pool =>
    match session.host with
    | .single _ => .pool pool pool.capacity?
    | _ => .pool pool none

/-! ## Starting a step -/

/-- A session after a step, what is known of its answer, the requests to settle, and
the calls that have ended. -/
structure Stage where
  started : Started
  session : Session
  requests : List Request
  finished : List (CallId × Outcome)

/-- A step that is answered at once. -/
def answered (session : Session) (answer : Answer) : Stage :=
  ⟨.answered answer, session, [], []⟩

/-- A step that started a call. -/
def called (session : Session) (name : Option String)
    (started : CallId × Host × ClusterProgress) : Stage :=
  ⟨.called started.1 name, { session with host := started.2.1 }, started.2.2.requests,
    started.2.2.finished⟩

/-- A step on the transport, answered at once, after which calls may have ended. -/
def settled (session : Session) (answer : Answer) (after : Transport.Settled) : Stage :=
  ⟨.answered answer, { session with transport := after.1, host := after.2.1 }, [], after.2.2⟩

/-- A step on the cluster of a session over one. -/
def onCluster (session : Session) (step : Cluster → Stage) : Stage :=
  match session.host.cluster? with
  | some cluster => step cluster
  | none => session.answered .noPlan

/-- A step on the pools by endpoint. -/
def onPools (session : Session) (step : EndpointPools Purpose → Stage) : Stage :=
  match session.host.endpointPools? with
  | some pools => step pools
  | none => session.answered .notLeased

/-- A step about a key. -/
def withKey (session : Session) (key : Except KeyError PartitionKey)
    (step : PartitionKey → Stage) : Stage :=
  match key with
  | .ok key => step key
  | .error e => session.answered (.keyError e)

/-- A step about a pool. -/
def withPool (session : Session) (target : Except Answer PoolId) (step : PoolId → Stage) :
    Stage :=
  match target with
  | .ok id => step id
  | .error answer => session.answered answer

/-- Plans a request and picks once, `count` times; the first failure ends it. -/
def spread (cluster : Cluster) (key : PartitionKey) :
    (count : Nat) → Except RouteError (List Address) × Cluster
  | 0 => (.ok [], cluster)
  | count + 1 =>
    match cluster.plan key with
    | (.error e, cluster) => (.error e, cluster)
    | (.ok plan, cluster) =>
      match plan.pick.1 with
      | .error e => (.error e, cluster)
      | .ok endpoint =>
        let (others, cluster) := spread cluster key count
        (others.map (endpoint :: ·), cluster)

/-- Runs a step as far as it goes without an answer of the transport. -/
def start (session : Session) : Step → Stage
  | .down addresses =>
    answered { session with transport := { session.transport with down := addresses } } .ok
  | .shut gate => answered { session with transport := session.transport.shut gate } .ok
  | .pass gate =>
    let (passed, after) := session.transport.pass session.host gate
    session.settled (.flag passed) after
  | .openUp gate =>
    let (count, after) := session.transport.openUp session.host gate
    session.settled (.count count) after
  | .acquire name target =>
    session.withPool (session.target target) fun id =>
      session.called (some name)
        (session.host.afterCall (session.host.network.acquire .direct id))
  | .release name =>
    match session.connections.lookup name with
    | none => session.answered .notLeased
    | some kept =>
      let session := { session with connections := forget session.connections name }
      session.called none
        (session.host.afterCall
          (session.host.network.release .direct kept.pool kept.connection))
  | .drop name =>
    answered { session with connections := forget session.connections name }
      (.flag (session.connections.lookup name).isSome)
  | .dispose target =>
    session.withPool (session.target target) fun id =>
      session.called none (session.host.afterCall (session.host.network.dispose .direct [id]))
  | .describe target =>
    session.withPool (session.target target) fun id => session.answered (session.describe id)
  | .outline => session.answered (.text session.host.outline)
  | .hold name endpoint =>
    session.withPool (session.endpointPool endpoint) fun id =>
      answered { session with held := keep session.held name id } .ok
  | .isSame name endpoint =>
    session.withPool (session.endpointPool endpoint) fun id =>
      session.answered (.flag (session.held.lookup name == some id))
  | .openMissing peers =>
    session.onPools fun pools =>
      let (opened, pools) := pools.openMissing (.ofReports peers)
      answered { session with host := session.host.setEndpointPools pools }
        (match opened with
          | .ok _ => .ok
          | .error e => .configurationError e)
  | .retireAbsent peers =>
    session.onPools fun pools =>
      session.called none
        (session.host.afterPoolsCall (pools.retireAbsent .direct (.ofReports peers)))
  | .disposeAll =>
    session.onPools fun pools =>
      session.called none (session.host.afterPoolsCall (pools.disposeAll .direct))
  | .size => session.onPools fun pools => session.answered (.size pools.entries.length)
  | .token key =>
    session.withKey key fun key =>
      session.onCluster fun cluster =>
        session.answered (match cluster.token key with
          | .ok token => .token token
          | .error e => .routeError e)
  | .plan name key =>
    session.withKey key fun key =>
      session.onCluster fun cluster =>
        match cluster.plan key with
        | (.error e, cluster) =>
          answered { session with host := .clustered cluster } (.routeError e)
        | (.ok plan, cluster) =>
          answered { session with
            host := .clustered cluster
            plans := keep session.plans name plan } (.plan plan)
  | .picks name count =>
    match session.plans.lookup name with
    | none => session.answered .noPlan
    | some plan =>
      let (picked, plan) := plan.picks count
      answered { session with plans := keep session.plans name plan }
        (match picked with
          | .ok endpoints => .addresses endpoints
          | .error e => .routeError e)
  | .fallback name =>
    match session.plans.lookup name with
    | none => session.answered .noPlan
    | some plan =>
      let (endpoints, plan) := plan.fallback
      answered { session with plans := keep session.plans name plan } (.addresses endpoints)
  | .spread key count =>
    session.withKey key fun key =>
      session.onCluster fun cluster =>
        let (picked, cluster) := spread cluster key count
        answered { session with host := .clustered cluster }
          (match picked with
            | .ok endpoints => .addresses endpoints
            | .error e => .routeError e)
  | .connect name key =>
    session.withKey key fun key =>
      session.onCluster fun cluster =>
        session.called (some name) (Host.afterClusterCall (cluster.startConnect key))
  | .refresh peers =>
    session.onCluster fun cluster =>
      session.called none (Host.afterClusterCall (cluster.startRefresh peers))
  | .shutdown =>
    session.onCluster fun cluster =>
      session.called none (Host.afterClusterCall cluster.startShutdown)
  | .view => session.onCluster fun cluster => session.answered (.view cluster.topology.view)

/-! ## Taking up calls that ended -/

/-- The connection that an outcome brings, to be kept. -/
def keptOf? : Outcome → Option Kept
  | .lent pool connection => some ⟨pool, connection⟩
  | .leased lease => some ⟨lease.pool, lease.connection⟩
  | _ => none

/-- Takes up one call that ended.  Gives the step it belongs to, and its answer. -/
def takeUp (session : Session) (ended : CallId × Outcome) : Option (Nat × Answer) × Session :=
  match session.pending.lookup ended.1 with
  | none => (none, session)
  | some pending =>
    let connections :=
      match pending.name, keptOf? ended.2 with
      | some name, some kept => keep session.connections name kept
      | _, _ => session.connections
    (some (pending.step, .ofOutcome ended.2),
      { session with
        connections := connections
        pending := session.pending.filter fun entry => entry.1 != ended.1 })

/-- Takes up calls that ended, in order. -/
def takeUpAll (session : Session) :
    List (CallId × Outcome) → List (Nat × Answer) × Session
  | [] => ([], session)
  | ended :: rest =>
    let (taken, session) := session.takeUp ended
    let (others, session) := session.takeUpAll rest
    (taken.toList ++ others, session)

/-! ## Reports -/

/-- The endpoints that have pools, with the connections kept, ordered by text. -/
def idleByEndpoint (pools : EndpointPools Purpose) : List (Address × Nat) :=
  let counts := pools.entries.map fun (endpoint, id) =>
    (endpoint, ((pools.pool? id).map Pool.idleCount).getD 0)
  counts.mergeSort fun a b => decide (a.1.toText ≤ b.1.toText)

/-- The state that a report shows. -/
def state (session : Session) : StateReport :=
  match session.host with
  | .single network =>
    match network.pools with
    | pool :: _ => .pool pool.idleCount pool.disposed
    | [] => .pool 0 false
  | .byEndpoint pools => .pools (idleByEndpoint pools)
  | .clustered cluster =>
    .cluster cluster.topology.view.addresses (idleByEndpoint cluster.pools)

/-- Runs the step with number `number`, and every call as far as it goes. -/
def runStep (session : Session) (number : Nat) (step : Step) : Report × Session :=
  let before := session.host.network
  let stage := session.start step
  let session := stage.session
  let session :=
    match stage.started with
    | .answered _ => session
    | .called call name =>
      { session with pending := (call, ⟨number, name⟩) :: session.pending }
  let (transport, host, finished) := session.transport.settle session.host stage.requests
  let session := { session with transport := transport, host := host }
  let (taken, session) := session.takeUpAll (stage.finished ++ finished)
  let answer :=
    match stage.started with
    | .answered answer => some answer
    | .called .. => taken.lookup number
  let after := session.host.network
  ({ answer := answer
     late := (taken.filter fun entry => entry.1 != number).mergeSort
       fun a b => decide (a.1 ≤ b.1)
     opened := after.opened.drop before.opened.length
     refused := after.refused.drop before.refused.length
     closed := ((after.closed.drop before.closed.length).map Connection.id).mergeSort
     state := session.state }, session)

/-- Runs steps from number `number` on. -/
def runFrom (session : Session) (number : Nat) : List Step → List Report
  | [] => []
  | step :: rest =>
    let (report, session) := session.runStep number step
    report :: session.runFrom (number + 1) rest

/-- The reports of a list of steps. -/
def run (session : Session) (steps : List Step) : List Report :=
  session.runFrom 0 steps

end Session
end RingRouting
