import RingRouting.Network.Connection

/-!
# Connection pools

A pool lends connections to one endpoint.  It never limits how many are in use; a
pool with a capacity keeps up to that many connections that were given back, and
lends the one that came back last first.  A disposed pool lends nothing and keeps
nothing.

The functions here are the steps of a pool's calls between two waits.  Opening and
closing are the transport's work: where a step needs one, its answer says so.

Main definitions:

- `Pool.acquire`: reuses a connection, or asks for a new one.
- `Pool.welcome`: decides on a new connection.
- `Pool.release`: keeps a connection that came back, or has it closed.
- `Pool.dispose`: stops lending, and has the kept connections closed.
-/

namespace RingRouting

/-- What becomes of connections that are given back. -/
inductive Retention where
  /-- Up to `capacity` are kept; `idle` are those kept now, the last to come first. -/
  | bounded (capacity : Nat) (idle : List Connection)
  /-- None is kept. -/
  | noReuse
deriving DecidableEq

/-- The connections to one endpoint.  These are the kinds of pool that the library has.  A registry
takes any factory that makes one of them, with whatever connections it likes; a pool that lends and
takes back in some other way is not described here. -/
structure Pool where
  endpoint : Address
  retention : Retention
  disposed : Bool
deriving DecidableEq

namespace Pool

/-- A pool that keeps up to `capacity` connections. -/
def bounded (endpoint : Address) (capacity : Nat) : Pool :=
  ⟨endpoint, .bounded capacity [], false⟩

/-- A pool that keeps no connections. -/
def noReuse (endpoint : Address) : Pool :=
  ⟨endpoint, .noReuse, false⟩

/-- The connections kept for reuse, the last to come first. -/
def idle (pool : Pool) : List Connection :=
  match pool.retention with
  | .bounded _ idle => idle
  | .noReuse => []

/-- The number of connections kept for reuse. -/
def idleCount (pool : Pool) : Nat :=
  pool.idle.length

/-- How many connections are kept at most, if any are. -/
def capacity? (pool : Pool) : Option Nat :=
  match pool.retention with
  | .bounded capacity _ => some capacity
  | .noReuse => none

/-! ## Lending -/

/-- The answer to a caller who wants a connection. -/
inductive Lending where
  /-- The pool is disposed. -/
  | refused
  /-- A kept connection is lent. -/
  | reused (connection : Connection)
  /-- A new connection is needed. -/
  | opening
deriving DecidableEq

/-- Answers a caller who wants a connection. -/
def acquire (pool : Pool) : Lending × Pool :=
  if pool.disposed then (.refused, pool)
  else match pool.retention with
    | .bounded capacity (connection :: idle) =>
      (.reused connection, { pool with retention := .bounded capacity idle })
    | .bounded _ [] => (.opening, pool)
    | .noReuse => (.opening, pool)

/-- Whether a connection opened for the pool is lent.  A pool disposed in the
meantime has it closed instead. -/
def welcome (pool : Pool) : Bool :=
  !pool.disposed

/-! ## Taking back -/

/-- Takes a connection back.  Gives the connection if it has to be closed. -/
def release (pool : Pool) (connection : Connection) : Option Connection × Pool :=
  match pool.retention with
  | .bounded capacity idle =>
    if !pool.disposed && idle.length < capacity then
      (none, { pool with retention := .bounded capacity (connection :: idle) })
    else (some connection, pool)
  | .noReuse => (some connection, pool)

/-- Stops lending.  Gives the connections to close, the first to have come first. -/
def dispose (pool : Pool) : List Connection × Pool :=
  match pool.retention with
  | .bounded capacity idle =>
    (idle.reverse, { pool with retention := .bounded capacity [], disposed := true })
  | .noReuse => ([], { pool with disposed := true })

/-! ## Outline -/

/-- The pool as a record. -/
def outline (pool : Pool) : String :=
  let endpoint := Outline.field "endpoint" pool.endpoint.toText
  let disposed := Outline.field "disposed" (Outline.flag pool.disposed)
  match pool.retention with
  | .bounded capacity idle =>
    Outline.record "BoundedPool" [
      endpoint,
      Outline.field "capacity" (toString capacity),
      Outline.field "idle" (toString idle.length),
      disposed]
  | .noReuse => Outline.record "NoReusePool" [endpoint, disposed]

end Pool
end RingRouting
