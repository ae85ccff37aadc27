import RingRouting.Session.Transport

/-!
# The steps of a session

A session is a list of steps: on its transport, on pools, on a cluster, and
questions.  Each step gives an answer, at once or when its call has ended.
-/

namespace RingRouting

/-- The pool that a step is about. -/
inductive Target where
  /-- The only pool there is. -/
  | only
  /-- A pool that is held under a name. -/
  | held (name : String)
  /-- The pool that an endpoint has now. -/
  | endpoint (address : Address)

/-- One step of a session. -/
inductive Step where
  /-- From now on exactly these endpoints are down. -/
  | down (addresses : List Address)
  | shut (gate : GateName)
  | pass (gate : GateName)
  | openUp (gate : GateName)
  /-- Gets a connection of a pool and keeps it under a name. -/
  | acquire (name : String) (target : Target)
  /-- Gives the connection kept under a name back. -/
  | release (name : String)
  /-- Forgets the connection kept under a name. -/
  | drop (name : String)
  | dispose (target : Target)
  | describe (target : Target)
  | outline
  /-- Keeps an endpoint's pool under a name. -/
  | hold (name : String) (endpoint : Address)
  /-- Asks whether the pool kept under a name is the endpoint's pool now. -/
  | isSame (name : String) (endpoint : Address)
  | openMissing (peers : List Peer)
  | retireAbsent (peers : List Peer)
  | disposeAll
  | size
  | token (key : Except KeyError PartitionKey)
  /-- Plans a request and keeps the plan under a name. -/
  | plan (name : String) (key : Except KeyError PartitionKey)
  | picks (name : String) (count : Nat)
  | fallback (name : String)
  /-- Plans a request and picks once, several times over. -/
  | spread (key : Except KeyError PartitionKey) (count : Nat)
  /-- Gets a connection to a replica and keeps it under a name. -/
  | connect (name : String) (key : Except KeyError PartitionKey)
  | refresh (peers : List Peer)
  | shutdown
  | view

/-- The answer to a step. -/
inductive Answer where
  | ok
  | flag (b : Bool)
  | count (n : Nat)
  /-- How many endpoints have a pool. -/
  | size (n : Nat)
  /-- A connection of a pool. -/
  | connection (connection : Connection)
  /-- A connection to a replica. -/
  | lease (lease : Lease)
  /-- A pool; its capacity is told of the only pool of a session. -/
  | pool (pool : Pool) (capacity : Option Nat)
  | text (text : String)
  | token (token : Token)
  | plan (plan : Plan)
  | addresses (addresses : List Address)
  | view (view : ClusterView)
  | keyError (e : KeyError)
  | poolError (e : PoolError)
  | routeError (e : RouteError)
  | configurationError (e : ConfigurationError)
  /-- No connection is kept under the name. -/
  | notLeased
  /-- No plan is kept under the name. -/
  | noPlan

/-- The answer that the outcome of a call gives. -/
def Answer.ofOutcome : Outcome → Answer
  | .lent _ lent => .connection lent
  | .unlent e => .poolError e
  | .leased leased => .lease leased
  | .unrouted e => .routeError e
  | .refreshed => .ok
  | .unrefreshed e => .configurationError e
  | .done => .ok

end RingRouting
