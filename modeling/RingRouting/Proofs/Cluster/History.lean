import RingRouting.Cluster.Builder

/-!
# Histories of clusters

What happens to a cluster is a list of events: calls that are made, and answers that
calls wait for.  Between two events every call is either ended or waits, so that a
list of events is one order in which calls interleave at the points where they wait,
and every such order is a list of events.

A history goes along with the cluster and keeps what its callers have seen: the
outcomes of calls, the leases they hold, the views that were published, and the
attempts that connect calls have made.

Main results:

- `Cluster.perform`: the cluster after one event.
- `History.run`: the history that a list of events makes.
- Theorem `History.run_induction`: what one event keeps, a run of events keeps.
- `History.occurAll`: the history where factories are exchanged between events.
-/

namespace RingRouting

/-! ## Events -/

/-- What can happen to a cluster. -/
inductive Event where
  | plan (key : PartitionKey)
  | connect (key : PartitionKey)
  /-- A lease is given back. -/
  | release (lease : Lease)
  | refresh (reports : List Peer)
  | shutdown
  /-- A call that waits gets an answer; one that no call waits for changes nothing. -/
  | answer (completion : Completion)

namespace Event

/-- Whether the event is the start of a refresh. -/
def isRefresh : Event → Bool
  | refresh _ => true
  | _ => false

/-- Whether the event is a shutdown. -/
def isShutdown : Event → Bool
  | shutdown => true
  | _ => false

/-- A lease can be given back by the one who holds it; anything else can happen at
any time. -/
def isPossible (leases : List Lease) : Event → Bool
  | release lease => leases.contains lease
  | _ => true

/-- The leases that are left once the event's own lease was given back. -/
def leasesLeft (leases : List Lease) : Event → List Lease
  | release lease => leases.erase lease
  | _ => leases

end Event

/-- The lease that an outcome hands out, if it hands one out. -/
def Outcome.lease? : Outcome → Option Lease
  | leased lease => some lease
  | _ => none

/-- The leases that a step has handed out. -/
def ClusterProgress.leases (progress : ClusterProgress) : List Lease :=
  progress.finished.filterMap fun ended => ended.2.lease?

/-- One attempt of a connect call, with the topology in which the request was
planned. -/
structure Attempt where
  call : CallId
  key : PartitionKey
  topology : Topology

namespace Cluster

/-- The cluster after an event, and what the event brought about. -/
def perform (cluster : Cluster) : Event → Cluster × ClusterProgress
  | .plan key => ((cluster.plan key).2, .none)
  | .connect key => (cluster.startConnect key).2
  | .release lease => (cluster.startRelease lease.pool lease.connection).2
  | .refresh reports => (cluster.startRefresh reports).2
  | .shutdown => cluster.startShutdown.2
  | .answer completion => cluster.complete completion

/-- The attempt that a call begins when its pool has answered, if it begins one. -/
def attemptAfter (cluster : Cluster) (ended : Finished Purpose) : Option Attempt :=
  match ended.purpose, ended.outcome with
  | .connect key version _, .failed e =>
    if cluster.replans version e then some ⟨ended.call, key, cluster.topology⟩ else none
  | _, _ => none

/-- The attempts that begin with an event. -/
def attemptsBy (cluster : Cluster) : Event → List Attempt
  | .connect key => [⟨cluster.newCall.1, key, cluster.topology⟩]
  | .answer completion =>
    (cluster.pools.network.complete completion).2.finished.filterMap cluster.attemptAfter
  | _ => []

end Cluster

/-! ## Histories -/

/-- A cluster, and what its callers have seen of it. -/
structure History where
  cluster : Cluster
  /-- The calls that have ended, in order. -/
  ended : List (CallId × Outcome)
  /-- The leases that were handed out and have not been given back. -/
  leases : List Lease
  /-- The attempts of connect calls, in order. -/
  attempts : List Attempt
  /-- The views that were published, in order. -/
  published : List ClusterView

namespace History

/-- The history of a cluster to which nothing has happened. -/
def start (cluster : Cluster) : History :=
  ⟨cluster, [], [], [], []⟩

/-- The view that a step has published, if it has published one. -/
def publishedBy (before after : Cluster) : List ClusterView :=
  if after.topology.version = before.topology.version then [] else [after.topology.view]

/-- The history after one more event that was possible. -/
def extend (history : History) (event : Event) : History :=
  let after := history.cluster.perform event
  { cluster := after.1
    ended := history.ended ++ after.2.finished
    leases := event.leasesLeft history.leases ++ after.2.leases
    attempts := history.attempts ++ history.cluster.attemptsBy event
    published := history.published ++ publishedBy history.cluster after.1 }

/-- The history after one more event; an event that is not possible changes nothing. -/
def step (history : History) (event : Event) : History :=
  if event.isPossible history.leases then history.extend event else history

/-- The history after several events. -/
def run (history : History) (events : List Event) : History :=
  events.foldl step history

@[simp]
theorem run_nil (history : History) : history.run [] = history :=
  rfl

@[simp]
theorem run_cons (history : History) (event : Event) (events : List Event) :
    history.run (event :: events) = (history.step event).run events :=
  rfl

theorem run_append (history : History) (first second : List Event) :
    history.run (first ++ second) = (history.run first).run second :=
  List.foldl_append

/-- What one event keeps, a run of events keeps. -/
theorem run_induction (Holds : History → Prop) (Allowed : Event → Prop)
    (hstep : ∀ history event, Allowed event → Holds history →
      event.isPossible history.leases = true → Holds (history.extend event))
    {history : History} (hstart : Holds history) {events : List Event}
    (hevents : ∀ event ∈ events, Allowed event) : Holds (history.run events) := by
  induction events generalizing history with
  | nil => exact hstart
  | cons event rest ih =>
      have hrest : ∀ later ∈ rest, Allowed later :=
        fun later hlater => hevents later (List.mem_cons_of_mem _ hlater)
      rw [run_cons]
      apply ih _ hrest
      unfold step
      split
      · rename_i hpossible
        exact hstep history event (hevents event List.mem_cons_self) hstart hpossible
      · exact hstart

end History

/-! ## Factories that change their answers -/

/-- The factories that a cluster asks. -/
structure Factories where
  snitch : Option (Factory SnitchArgs Snitch)
  strategy : Option (Factory StrategyArgs Strategy)
  pool : Factory PoolArgs Pool

/-- What can occur where a factory need not answer the same question alike each time.  An event
asks each factory about an argument once at most, so that it is enough to exchange factories
between events. -/
inductive Occurrence where
  | event (event : Event)
  /-- From now on the factories answer in another way. -/
  | exchange (factories : Factories)

/-- The cluster with other factories. -/
def Cluster.withFactories (cluster : Cluster) (factories : Factories) : Cluster :=
  { cluster with
    snitchFactory := factories.snitch
    strategyFactory := factories.strategy
    pools := { cluster.pools with factory := factories.pool } }

namespace History

/-- The history after one more occurrence. -/
def occur (history : History) : Occurrence → History
  | .event event => history.step event
  | .exchange factories => { history with cluster := history.cluster.withFactories factories }

/-- The history after several occurrences. -/
def occurAll (history : History) (occurrences : List Occurrence) : History :=
  occurrences.foldl occur history

/-- Where no factories are exchanged, events run as they do. -/
theorem occurAll_events (history : History) (events : List Event) :
    history.occurAll (events.map .event) = history.run events := by
  rw [occurAll, List.foldl_map]
  rfl

end History
end RingRouting
