import RingRouting.Network.Calls
import RingRouting.Policy.Activator

/-!
# One pool for each endpoint

The pools of a cluster are kept by endpoint.  They follow the view of the cluster:
endpoints that joined get a pool, and the pools of those that left are disposed.  A
pool that was taken out of the map still serves those who hold it.

Main definitions:

- `EndpointPools.get`: the pool of an endpoint.
- `EndpointPools.openMissing`: makes pools for new members of a view.
- `EndpointPools.retireAbsentAs`: takes out and disposes the pools of other endpoints.
- `EndpointPools.disposeAllAs`: takes out and disposes all pools.
-/

namespace RingRouting

/-- Pools by endpoint, over a network that holds them. -/
structure EndpointPools (Purpose : Type) where
  capacity : Nat
  factory : Factory PoolArgs Pool
  /-- The endpoints that have a pool, with its number, in the order of their coming. -/
  entries : List (Address × PoolId)
  network : Network Purpose

namespace EndpointPools

variable {Purpose : Type}

/-- No pools yet; `factory` will make them. -/
def new (capacity : Nat) (factory : Factory PoolArgs Pool) : EndpointPools Purpose :=
  ⟨capacity, factory, [], .empty⟩

/-- No pools yet; they will keep up to `capacity` connections each. -/
def bounded (capacity : Nat) : EndpointPools Purpose :=
  new capacity Activator.boundedPool

/-- The endpoints that have a pool. -/
def endpoints (pools : EndpointPools Purpose) : List Address :=
  pools.entries.map Prod.fst

/-- The number of the endpoint's pool, if it has one. -/
def find? (pools : EndpointPools Purpose) (endpoint : Address) : Option PoolId :=
  pools.entries.lookup endpoint

/-- The number of the endpoint's pool. -/
def get (pools : EndpointPools Purpose) (endpoint : Address) : Except PoolError PoolId :=
  match pools.find? endpoint with
  | some id => .ok id
  | none => .error (.noPool endpoint)

/-- The pool with a number. -/
def pool? (pools : EndpointPools Purpose) (id : PoolId) : Option Pool :=
  pools.network.pools[id]?

/-! ## Following the cluster -/

/-- Makes a pool for an endpoint. -/
def openPool (pools : EndpointPools Purpose) (endpoint : Address) :
    Except ConfigurationError (EndpointPools Purpose) :=
  match pools.factory ⟨endpoint, pools.capacity⟩ with
  | .error e => .error e
  | .ok pool =>
    let (id, network) := pools.network.addPool pool
    .ok { pools with entries := pools.entries ++ [(endpoint, id)], network := network }

/-- Makes pools for those endpoints that have none.  The first that cannot be made
ends it; the pools made before it stay. -/
def openMissingFor (pools : EndpointPools Purpose) :
    List Address → Except ConfigurationError Unit × EndpointPools Purpose
  | [] => (.ok (), pools)
  | endpoint :: rest =>
    if (pools.find? endpoint).isSome then pools.openMissingFor rest
    else match pools.openPool endpoint with
      | .error e => (.error e, pools)
      | .ok pools => pools.openMissingFor rest

/-- Makes pools for the members of a view that have none. -/
def openMissing (pools : EndpointPools Purpose) (view : ClusterView) :
    Except ConfigurationError Unit × EndpointPools Purpose :=
  pools.openMissingFor view.addresses

/-- Whether an endpoint is a member of a view. -/
def isMember (view : ClusterView) (endpoint : Address) : Bool :=
  (view.get? endpoint).isSome

/-- Lets a call take out and dispose the pools of endpoints that are no members of
a view. -/
def retireAbsentAs (pools : EndpointPools Purpose) (call : CallId) (purpose : Purpose)
    (view : ClusterView) : EndpointPools Purpose × Progress Purpose :=
  let stale := pools.entries.filter fun entry => !isMember view entry.1
  let kept := pools.entries.filter fun entry => isMember view entry.1
  let (network, progress) := pools.network.disposeAs call purpose (stale.map Prod.snd)
  ({ pools with entries := kept, network := network }, progress)

/-- Lets a call take out and dispose all pools. -/
def disposeAllAs (pools : EndpointPools Purpose) (call : CallId) (purpose : Purpose) :
    EndpointPools Purpose × Progress Purpose :=
  let (network, progress) := pools.network.disposeAs call purpose (pools.entries.map Prod.snd)
  ({ pools with entries := [], network := network }, progress)

/-! ## Starting calls -/

/-- Numbers a new call. -/
def newCall (pools : EndpointPools Purpose) : CallId × EndpointPools Purpose :=
  let (call, network) := pools.network.newCall
  (call, { pools with network := network })

/-- Starts a call that disposes the pools of endpoints that left. -/
def retireAbsent (pools : EndpointPools Purpose) (purpose : Purpose) (view : ClusterView) :
    CallId × EndpointPools Purpose × Progress Purpose :=
  let (call, pools) := pools.newCall
  (call, pools.retireAbsentAs call purpose view)

/-- Starts a call that disposes all pools. -/
def disposeAll (pools : EndpointPools Purpose) (purpose : Purpose) :
    CallId × EndpointPools Purpose × Progress Purpose :=
  let (call, pools) := pools.newCall
  (call, pools.disposeAllAs call purpose)

/-! ## Outline -/

/-- The pools as a record. -/
def outline (pools : EndpointPools Purpose) : String :=
  Outline.record "EndpointPools" [
    Outline.field "transport" "Tx",
    Outline.field "capacity" (toString pools.capacity),
    Outline.field "endpoints" (Outline.list (pools.endpoints.map Address.toText))]

end EndpointPools
end RingRouting
