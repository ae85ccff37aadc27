import RingRouting.Session.Host

/-!
# A transport in memory

The transport of a session opens and closes connections at once, unless the gate
they have to pass is shut.  At a shut gate requests wait, first come first.
Endpoints can be down; whoever has passed the gate to one of them is refused.

Main definitions:

- `Transport.settle`: answers requests, and those that the answers lead to, until
  every call is finished or waits.
- `Transport.pass`, `Transport.openUp`: let one or all that wait at a gate through.
-/

namespace RingRouting

/-- The two gates. -/
inductive GateName where
  | opening
  | closing
deriving DecidableEq

/-- A gate, and the requests that wait at it, first come first. -/
structure Gate where
  isShut : Bool
  queue : List Request

/-- The transport of a session. -/
structure Transport where
  down : List Address
  openingGate : Gate
  closingGate : Gate

namespace Transport

/-- No endpoint is down and no gate is shut. -/
def initial : Transport :=
  ⟨[], ⟨false, []⟩, ⟨false, []⟩⟩

/-- The gate with a name. -/
def gate (transport : Transport) : GateName → Gate
  | .opening => transport.openingGate
  | .closing => transport.closingGate

/-- The transport with another state of a gate. -/
def setGate (transport : Transport) (name : GateName) (gate : Gate) : Transport :=
  match name with
  | .opening => { transport with openingGate := gate }
  | .closing => { transport with closingGate := gate }

/-- The gate that a request has to pass, if there is one. -/
def gateOf? : Request → Option GateName
  | .opening .. => some .opening
  | .closing .. => some .closing
  | .turn _ => none

/-- The answer to a request that has passed its gate. -/
def answer (transport : Transport) : Request → Completion
  | .opening call endpoint =>
    if transport.down.contains endpoint then
      .unreachable call (.io endpoint "connection refused")
    else .opened call
  | .closing call connection => .closed call connection
  | .turn call => .turn call

/-- Lets a request wait if its gate is shut; answers it otherwise. -/
def submit (transport : Transport) (request : Request) : Transport × Option Completion :=
  match gateOf? request with
  | none => (transport, some (transport.answer request))
  | some name =>
    let gate := transport.gate name
    if gate.isShut then
      (transport.setGate name { gate with queue := gate.queue ++ [request] }, none)
    else (transport, some (transport.answer request))

/-- The transport, its host, and the calls that ended. -/
abbrev Settled := Transport × Host × List (CallId × Outcome)

/-- Answers at most `steps` requests, each followed by those that its answer leads
to. -/
def settleWithin (transport : Transport) (host : Host) :
    (steps : Nat) → List Request → Settled
  | 0, _ => (transport, host, [])
  | _ + 1, [] => (transport, host, [])
  | steps + 1, request :: rest =>
    match transport.submit request with
    | (transport, none) => settleWithin transport host steps rest
    | (transport, some completion) =>
      let (host, progress) := host.complete completion
      let (transport, host, finished) :=
        settleWithin transport host steps (progress.requests ++ rest)
      (transport, host, progress.finished ++ finished)

/-- A bound on the requests that can follow from some.  Each call that waits asks for
a connection at most once more than views are published, each connection is closed
at most once, and each refresh that waits gets its turn once. -/
def settleSteps (host : Host) (requests : List Request) : Nat :=
  let refreshes := (host.cluster?.map fun cluster => cluster.refreshes.waiting.length).getD 0
  let size := requests.length + host.network.calls.length + host.network.opened.length
    + refreshes + 2
  8 * size * size

/-- Answers requests, and those that the answers lead to, until every call is
finished or waits at a gate. -/
def settle (transport : Transport) (host : Host) (requests : List Request) : Settled :=
  transport.settleWithin host (settleSteps host requests) requests

/-- Lets a request through its gate and the call behind it run as far as it can. -/
def letThrough (transport : Transport) (host : Host) (request : Request) : Settled :=
  let (host, progress) := host.complete (transport.answer request)
  let (transport, host, finished) := transport.settle host progress.requests
  (transport, host, progress.finished ++ finished)

/-- Lets the first that waits at a gate through, and says whether there was one. -/
def pass (transport : Transport) (host : Host) (name : GateName) : Bool × Settled :=
  let gate := transport.gate name
  match gate.queue with
  | [] => (false, transport, host, [])
  | first :: rest =>
    (true, (transport.setGate name { gate with queue := rest }).letThrough host first)

/-- Lets requests through one after another. -/
def letAllThrough (transport : Transport) (host : Host) : List Request → Settled
  | [] => (transport, host, [])
  | request :: rest =>
    let (transport, host, finished) := transport.letThrough host request
    let (transport, host, others) := letAllThrough transport host rest
    (transport, host, finished ++ others)

/-- Opens a gate and lets all that wait at it through, and says how many. -/
def openUp (transport : Transport) (host : Host) (name : GateName) : Nat × Settled :=
  let waiting := (transport.gate name).queue
  (waiting.length, (transport.setGate name ⟨false, []⟩).letAllThrough host waiting)

/-- Shuts a gate. -/
def shut (transport : Transport) (name : GateName) : Transport :=
  transport.setGate name { transport.gate name with isShut := true }

end Transport
end RingRouting
