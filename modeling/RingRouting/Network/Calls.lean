import RingRouting.Network.Pool

/-!
# Calls on pools

Calls on pools wait for a transport: for a connection to open, or for connections
to close.  A network holds all pools, the calls that wait, and what the transport
did so far.  A call is started by `acquire`, `release` or `dispose`, runs as far as
it can, and then either is finished or has asked the transport for something; each
answer of the transport, given in any order by `complete`, lets its call run on.

Every pool has a number, and so has every call.  A purpose of any type goes along
with a call; it is given back with the call's outcome.

Main definitions:

- `Network`: pools, waiting calls, and the transport's record.
- `Network.acquire`, `Network.release`, `Network.dispose`: start a call.
- `Network.complete`: an answer of the transport.
-/

namespace RingRouting

/-- The number of a pool. -/
abbrev PoolId := Nat

/-- The number of a call. -/
abbrev CallId := Nat

/-! ## What calls ask for and what they give -/

/-- What a call asks for before it can run on. -/
inductive Request where
  /-- A connection to an endpoint. -/
  | opening (call : CallId) (endpoint : Address)
  /-- The end of a connection. -/
  | closing (call : CallId) (connection : Connection)
  /-- Its turn, after others that stand before it. -/
  | turn (call : CallId)
deriving DecidableEq

/-- An answer to a request. -/
inductive Completion where
  /-- The connection was opened. -/
  | opened (call : CallId)
  /-- The connection could not be opened. -/
  | unreachable (call : CallId) (cause : ConnectionError)
  /-- The connection was closed. -/
  | closed (call : CallId) (connection : Connection)
  /-- It is the call's turn. -/
  | turn (call : CallId)
deriving DecidableEq

/-- How a call on pools ends. -/
inductive PoolOutcome where
  /-- A pool lent a connection. -/
  | lent (pool : PoolId) (connection : Connection)
  /-- No connection could be had. -/
  | failed (e : PoolError)
  /-- A connection was given back, or pools were disposed. -/
  | done
deriving DecidableEq

/-- A call that ended. -/
structure Finished (Purpose : Type) where
  call : CallId
  purpose : Purpose
  outcome : PoolOutcome

/-- What a step of a network brought about: requests in order, and ended calls. -/
structure Progress (Purpose : Type) where
  requests : List Request
  finished : List (Finished Purpose)

namespace Progress

variable {Purpose : Type}

/-- A step that asks and ends nothing. -/
def none : Progress Purpose :=
  ⟨[], []⟩

/-- A step that ends a call. -/
def finish (call : CallId) (purpose : Purpose) (outcome : PoolOutcome) : Progress Purpose :=
  ⟨[], [⟨call, purpose, outcome⟩]⟩

/-- A step that asks. -/
def ask (requests : List Request) : Progress Purpose :=
  ⟨requests, []⟩

end Progress

/-! ## Networks -/

/-- What a call waits for. -/
inductive Wait where
  /-- A new connection for a pool. -/
  | opening (pool : PoolId)
  /-- The end of a connection opened for a pool that was disposed meanwhile. -/
  | discarding (pool : PoolId) (connection : Connection)
  /-- The end of some connections. -/
  | closing (left : List Connection)
deriving DecidableEq

/-- A call that waits. -/
structure Call (Purpose : Type) where
  id : CallId
  purpose : Purpose
  wait : Wait

/-- Pools, the calls that wait on them, and what the transport did so far. -/
structure Network (Purpose : Type) where
  /-- All pools there ever were, by number. -/
  pools : List Pool
  /-- The calls that wait. -/
  calls : List (Call Purpose)
  /-- The number of the next call. -/
  nextCall : CallId
  /-- The connections opened, in order. -/
  opened : List Connection
  /-- The endpoints that could not be reached, in order. -/
  refused : List Address
  /-- The connections closed, in order. -/
  closed : List Connection

namespace Network

variable {Purpose : Type}

/-- A network without pools. -/
def empty : Network Purpose :=
  ⟨[], [], 0, [], [], []⟩

/-- Adds a pool. -/
def addPool (network : Network Purpose) (pool : Pool) : PoolId × Network Purpose :=
  (network.pools.length, { network with pools := network.pools ++ [pool] })

/-- Puts a pool in the place of the one with its number. -/
def setPool (network : Network Purpose) (id : PoolId) (pool : Pool) : Network Purpose :=
  { network with pools := network.pools.set id pool }

/-- Numbers a new call. -/
def newCall (network : Network Purpose) : CallId × Network Purpose :=
  (network.nextCall, { network with nextCall := network.nextCall + 1 })

/-- Lets a call wait. -/
def suspend (network : Network Purpose) (call : CallId) (purpose : Purpose) (wait : Wait) :
    Network Purpose :=
  { network with calls := network.calls ++ [⟨call, purpose, wait⟩] }

/-- Takes a call out of those that wait. -/
def resume (network : Network Purpose) (call : CallId) : Network Purpose :=
  { network with calls := network.calls.filter fun waiting => waiting.id != call }

/-- The call with a number, if it waits. -/
def call? (network : Network Purpose) (call : CallId) : Option (Call Purpose) :=
  network.calls.find? fun waiting => waiting.id == call

/-! ## Starting calls -/

/-- Lets a call close connections; with none to close it ends. -/
def closeAll (network : Network Purpose) (call : CallId) (purpose : Purpose)
    (connections : List Connection) : Network Purpose × Progress Purpose :=
  if connections.isEmpty then (network, .finish call purpose .done)
  else
    (network.suspend call purpose (.closing connections),
      .ask (connections.map fun connection => .closing call connection))

/-- Lets a call get a connection of a pool. -/
def acquireAs (network : Network Purpose) (call : CallId) (purpose : Purpose) (id : PoolId) :
    Network Purpose × Progress Purpose :=
  match network.pools[id]? with
  | none => (network, .none)
  | some pool =>
    match pool.acquire with
    | (.refused, _) => (network, .finish call purpose (.failed (.disposed pool.endpoint)))
    | (.reused connection, pool) =>
      (network.setPool id pool, .finish call purpose (.lent id connection))
    | (.opening, _) =>
      (network.suspend call purpose (.opening id), .ask [.opening call pool.endpoint])

/-- Lets a call give a connection back to a pool. -/
def releaseAs (network : Network Purpose) (call : CallId) (purpose : Purpose) (id : PoolId)
    (connection : Connection) : Network Purpose × Progress Purpose :=
  match network.pools[id]? with
  | none => (network, .none)
  | some pool =>
    let (rejected, pool) := pool.release connection
    (network.setPool id pool).closeAll call purpose rejected.toList

/-- Disposes pools, one after another.  Gives the connections to close, in order. -/
def disposePools (network : Network Purpose) : List PoolId → List Connection × Network Purpose
  | [] => ([], network)
  | id :: rest =>
    match network.pools[id]? with
    | none => network.disposePools rest
    | some pool =>
      let (drained, pool) := pool.dispose
      let (others, network) := (network.setPool id pool).disposePools rest
      (drained ++ others, network)

/-- Lets a call dispose pools. -/
def disposeAs (network : Network Purpose) (call : CallId) (purpose : Purpose)
    (ids : List PoolId) : Network Purpose × Progress Purpose :=
  let (drained, network) := network.disposePools ids
  network.closeAll call purpose drained

/-- Starts a call that gets a connection of a pool. -/
def acquire (network : Network Purpose) (purpose : Purpose) (id : PoolId) :
    CallId × Network Purpose × Progress Purpose :=
  let (call, network) := network.newCall
  (call, network.acquireAs call purpose id)

/-- Starts a call that gives a connection back to a pool. -/
def release (network : Network Purpose) (purpose : Purpose) (id : PoolId)
    (connection : Connection) : CallId × Network Purpose × Progress Purpose :=
  let (call, network) := network.newCall
  (call, network.releaseAs call purpose id connection)

/-- Starts a call that disposes pools. -/
def dispose (network : Network Purpose) (purpose : Purpose) (ids : List PoolId) :
    CallId × Network Purpose × Progress Purpose :=
  let (call, network) := network.newCall
  (call, network.disposeAs call purpose ids)

/-! ## Answers of the transport -/

/-- Runs a call on whose new connection was opened.  The connection is lent, unless
its pool was disposed in the meantime. -/
def completeOpened (network : Network Purpose) (call : Call Purpose) (id : PoolId) :
    Network Purpose × Progress Purpose :=
  match network.pools[id]? with
  | none => (network, .none)
  | some pool =>
    let connection : Connection := ⟨network.opened.length, pool.endpoint⟩
    let network := { network.resume call.id with opened := network.opened ++ [connection] }
    if pool.welcome then (network, .finish call.id call.purpose (.lent id connection))
    else
      (network.suspend call.id call.purpose (.discarding id connection),
        .ask [.closing call.id connection])

/-- Runs a call on whose endpoint could not be reached.  The call fails for the reason that the
transport gave. -/
def completeUnreachable (network : Network Purpose) (call : Call Purpose) (id : PoolId)
    (cause : ConnectionError) : Network Purpose × Progress Purpose :=
  match network.pools[id]? with
  | none => (network, .none)
  | some pool =>
    ({ network.resume call.id with refused := network.refused ++ [pool.endpoint] },
      .finish call.id call.purpose (.failed (.unreachable cause)))

/-- Runs a call on one of whose connections was closed. -/
def completeClosed (network : Network Purpose) (call : Call Purpose) (connection : Connection) :
    Network Purpose × Progress Purpose :=
  let after := { network.resume call.id with closed := network.closed ++ [connection] }
  match call.wait with
  | .opening _ => (network, .none)
  | .discarding id awaited =>
    if awaited = connection then
      match network.pools[id]? with
      | none => (network, .none)
      | some pool =>
        (after, .finish call.id call.purpose (.failed (.disposed pool.endpoint)))
    else (network, .none)
  | .closing left =>
    if connection ∈ left then
      let left := left.erase connection
      if left.isEmpty then (after, .finish call.id call.purpose .done)
      else (after.suspend call.id call.purpose (.closing left), .none)
    else (network, .none)

/-- Takes an answer of the transport.  An answer that no call waits for changes
nothing. -/
def complete (network : Network Purpose) (completion : Completion) :
    Network Purpose × Progress Purpose :=
  match completion with
  | .opened call =>
    match network.call? call with
    | some waiting =>
      match waiting.wait with
      | .opening id => network.completeOpened waiting id
      | _ => (network, .none)
    | none => (network, .none)
  | .unreachable call cause =>
    match network.call? call with
    | some waiting =>
      match waiting.wait with
      | .opening id => network.completeUnreachable waiting id cause
      | _ => (network, .none)
    | none => (network, .none)
  | .closed call connection =>
    match network.call? call with
    | some waiting => network.completeClosed waiting connection
    | none => (network, .none)
  | .turn _ => (network, .none)

end Network
end RingRouting
