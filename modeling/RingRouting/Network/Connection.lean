import RingRouting.Text.AddressText
import RingRouting.Text.Outline

/-!
# Connections

A connection is known by its number and by the endpoint it was opened to.  A transport
may fail to open one, and getting one from a pool may fail.
-/

namespace RingRouting

/-- A connection that a transport opened. -/
structure Connection where
  id : Nat
  endpoint : Address
deriving DecidableEq

/-- The connection's number as a tuple. -/
def Connection.outline (connection : Connection) : String :=
  "Conn" ++ Outline.tuple [toString connection.id]

/-- Why a transport opens no connection, as the transport tells it: the address that refused,
and what went wrong in words. -/
inductive ConnectionError where
  | io (address : Address) (cause : String)
deriving DecidableEq

/-- The wording of a connection error. -/
def ConnectionError.message : ConnectionError → String
  | io address cause => s!"Failed to connect to {address.toText}: {cause}"

/-- Why a pool gives no connection. -/
inductive PoolError where
  /-- The pool was disposed; it lends no more. -/
  | disposed (endpoint : Address)
  /-- The endpoint has no pool. -/
  | noPool (endpoint : Address)
  /-- The transport could not connect, for the reason it gave. -/
  | unreachable (cause : ConnectionError)
deriving DecidableEq

/-- The wording of a pool error. -/
def PoolError.message : PoolError → String
  | disposed endpoint => s!"Connection pool for {endpoint.toText} has been disposed"
  | noPool endpoint => s!"No connection pool for endpoint {endpoint.toText}"
  | unreachable cause => cause.message

/-- Whether the error says that the endpoint's pool is gone. -/
def PoolError.poolIsGone : PoolError → Bool
  | disposed _ | noPool _ => true
  | unreachable _ => false

end RingRouting
