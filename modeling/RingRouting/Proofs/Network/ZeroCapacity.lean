import RingRouting.Proofs.Network.PoolHistory

/-!
# Pools that may keep nothing

A pool with capacity zero and a pool that keeps no connections cannot be told apart.  To see
it, each pool is mapped to the one that keeps none, at the same endpoint and with the same
mark; where pools keep nothing and have no room, every step of a network commutes with the
map, whatever calls wait and in whatever order the transport answers.

Main definitions:

- `Pool.KeepsNone`: nothing is kept, and nothing can be.
- `Network.forgetful`: the network with pools that keep no connections.
- `PoolHistory.observations`: what callers and the transport see of a run.

Main results:

- Theorems `Network.acquireAs_forgetful`, `Network.releaseAs_forgetful`,
  `Network.disposeAs_forgetful` and `Network.complete_forgetful`: the steps of a network.
- Theorem `PoolHistory.zero_capacity_is_no_reuse`: the two pools are seen to do the same.
-/

namespace RingRouting

namespace Pool

/-! ## One pool -/

/-- The pool keeps nothing, and nothing that comes back will be kept. -/
def KeepsNone (pool : Pool) : Prop :=
  pool.retention = .bounded 0 [] ∨ pool.retention = .noReuse

/-- The pool that keeps no connections, in the place of this one. -/
def forgetful (pool : Pool) : Pool :=
  { pool with retention := .noReuse }

theorem keepsNone_forgetful (pool : Pool) : pool.forgetful.KeepsNone :=
  .inr rfl

namespace KeepsNone

variable {pool : Pool}

theorem idle_eq (h : pool.KeepsNone) : pool.idle = [] := by
  rcases h with h | h <;> simp [idle, h]

/-- A request is refused or has a connection opened, and never changes the pool. -/
theorem acquire_eq (h : pool.KeepsNone) :
    pool.acquire = (if pool.disposed then .refused else .opening, pool) := by
  unfold acquire
  split
  · rfl
  · rcases h with h | h <;> rw [h]

/-- What comes back has to be closed. -/
theorem release_eq (h : pool.KeepsNone) (connection : Connection) :
    pool.release connection = (some connection, pool) := by
  unfold release
  rcases h with h | h <;> simp [h]

/-- Disposing marks the pool, and leaves nothing to close. -/
theorem dispose_eq (h : pool.KeepsNone) : pool.dispose = ([], { pool with disposed := true }) := by
  rcases pool with ⟨endpoint, retention, disposed⟩
  rcases h with h | h <;> cases h <;> rfl

theorem dispose (h : pool.KeepsNone) : pool.dispose.2.KeepsNone := by
  rw [h.dispose_eq]
  exact h

/-- No event makes such a pool keep anything. -/
theorem after (h : pool.KeepsNone) (event : PoolEvent) : (pool.after event).KeepsNone := by
  cases event with
  | acquire =>
      rw [Pool.after, h.acquire_eq]
      exact h
  | release connection =>
      rw [Pool.after, h.release_eq]
      exact h
  | dispose => exact h.dispose
  | answer => exact h

/-- Disposing can be done on either side of the map. -/
theorem dispose_forgetful (h : pool.KeepsNone) :
    pool.forgetful.dispose = (pool.dispose.1, pool.dispose.2.forgetful) := by
  rw [h.dispose_eq]
  rfl

end KeepsNone

end Pool

namespace Network

variable {Purpose : Type} {network : Network Purpose}

/-! ## All pools of a network -/

/-- The network with pools that keep no connections. -/
def forgetful (network : Network Purpose) : Network Purpose :=
  { network with pools := network.pools.map Pool.forgetful }

/-- No pool keeps anything or will. -/
def KeepsNone (network : Network Purpose) : Prop :=
  ∀ pool ∈ network.pools, pool.KeepsNone

/-- What a step leads to, with pools that keep no connections. -/
def forget (result : Network Purpose × Progress Purpose) : Network Purpose × Progress Purpose :=
  (result.1.forgetful, result.2)

theorem forgetful_pool? (network : Network Purpose) (id : PoolId) :
    network.forgetful.pools[id]? = (network.pools[id]?).map Pool.forgetful :=
  List.getElem?_map

theorem KeepsNone.pool (h : network.KeepsNone) {id : PoolId} {pool : Pool}
    (hpool : network.pools[id]? = some pool) : pool.KeepsNone :=
  h pool (List.mem_of_getElem? hpool)

theorem KeepsNone.setPool (h : network.KeepsNone) (id : PoolId) {after : Pool}
    (hafter : after.KeepsNone) : (network.setPool id after).KeepsNone := by
  intro pool hpool
  rcases List.mem_or_eq_of_mem_set hpool with hold | rfl
  · exact h pool hold
  · exact hafter

theorem forgetful_setPool (network : Network Purpose) (id : PoolId) (pool : Pool) :
    (network.setPool id pool).forgetful = network.forgetful.setPool id pool.forgetful := by
  simp [forgetful, Network.setPool]

/-- The end of connections has nothing to do with pools. -/
theorem closeAll_forgetful (network : Network Purpose) (call : CallId) (purpose : Purpose)
    (connections : List Connection) :
    network.forgetful.closeAll call purpose connections =
      forget (network.closeAll call purpose connections) := by
  unfold closeAll
  split <;> rfl

/-! ## Steps -/

theorem acquireAs_forgetful (h : network.KeepsNone) (call : CallId) (purpose : Purpose)
    (id : PoolId) :
    network.forgetful.acquireAs call purpose id =
      forget (network.acquireAs call purpose id) := by
  unfold acquireAs
  rw [forgetful_pool?]
  cases hpool : network.pools[id]? with
  | none => rfl
  | some pool =>
      have hmark : pool.forgetful.disposed = pool.disposed := rfl
      simp only [Option.map_some, (h.pool hpool).acquire_eq, pool.keepsNone_forgetful.acquire_eq,
        hmark]
      cases pool.disposed <;> rfl

theorem releaseAs_forgetful (h : network.KeepsNone) (call : CallId) (purpose : Purpose)
    (id : PoolId) (connection : Connection) :
    network.forgetful.releaseAs call purpose id connection =
      forget (network.releaseAs call purpose id connection) := by
  unfold releaseAs
  rw [forgetful_pool?]
  cases hpool : network.pools[id]? with
  | none => rfl
  | some pool =>
      simp only [Option.map_some, (h.pool hpool).release_eq,
        pool.keepsNone_forgetful.release_eq]
      rw [← forgetful_setPool]
      exact closeAll_forgetful _ _ _ _

theorem disposePools_forgetful (ids : List PoolId) (h : network.KeepsNone) :
    network.forgetful.disposePools ids =
      ((network.disposePools ids).1, (network.disposePools ids).2.forgetful) := by
  induction ids generalizing network with
  | nil => rfl
  | cons id rest ih =>
      simp only [disposePools, forgetful_pool?]
      cases hpool : network.pools[id]? with
      | none => exact ih h
      | some pool =>
          have hkept := h.pool hpool
          simp only [Option.map_some, hkept.dispose_forgetful, ← forgetful_setPool,
            ih (h.setPool id hkept.dispose)]

theorem disposeAs_forgetful (h : network.KeepsNone) (call : CallId) (purpose : Purpose)
    (ids : List PoolId) :
    network.forgetful.disposeAs call purpose ids =
      forget (network.disposeAs call purpose ids) := by
  simp only [disposeAs, disposePools_forgetful ids h]
  exact closeAll_forgetful _ _ _ _

/-! ## Answers of the transport -/

theorem completeOpened_forgetful (network : Network Purpose) (waiting : Call Purpose)
    (id : PoolId) :
    network.forgetful.completeOpened waiting id = forget (network.completeOpened waiting id) := by
  unfold completeOpened
  rw [forgetful_pool?]
  cases network.pools[id]? with
  | none => rfl
  | some pool =>
      have hwelcome : pool.forgetful.welcome = pool.welcome := rfl
      simp only [Option.map_some, hwelcome]
      cases pool.welcome <;> rfl

theorem completeUnreachable_forgetful (network : Network Purpose) (waiting : Call Purpose)
    (id : PoolId) (cause : ConnectionError) :
    network.forgetful.completeUnreachable waiting id cause =
      forget (network.completeUnreachable waiting id cause) := by
  unfold completeUnreachable
  rw [forgetful_pool?]
  cases network.pools[id]? <;> rfl

theorem completeClosed_forgetful (network : Network Purpose) (waiting : Call Purpose)
    (connection : Connection) :
    network.forgetful.completeClosed waiting connection =
      forget (network.completeClosed waiting connection) := by
  unfold completeClosed
  cases waiting.wait with
  | opening id => rfl
  | discarding id awaited =>
      by_cases hsame : awaited = connection
      · simp only [hsame, if_true, forgetful_pool?]
        cases network.pools[id]? <;> rfl
      · simp only [hsame, if_false]
        rfl
  | closing left =>
      by_cases hmem : connection ∈ left
      · simp only [hmem, if_true]
        split <;> rfl
      · simp only [hmem, if_false]
        rfl

/-- The answers find the same calls, and of a pool they look at its endpoint and its mark only. -/
theorem complete_forgetful (network : Network Purpose) (completion : Completion) :
    network.forgetful.complete completion = forget (network.complete completion) := by
  have hcall : ∀ id, network.forgetful.call? id = network.call? id := fun _ => rfl
  cases completion with
  | opened call =>
      simp only [complete, hcall]
      cases network.call? call with
      | none => rfl
      | some waiting =>
          cases hwait : waiting.wait <;> simp only [hwait, completeOpened_forgetful]
          all_goals rfl
  | unreachable call cause =>
      simp only [complete, hcall]
      cases network.call? call with
      | none => rfl
      | some waiting =>
          cases hwait : waiting.wait <;> simp only [hwait, completeUnreachable_forgetful]
          all_goals rfl
  | closed call connection =>
      simp only [complete, hcall]
      cases network.call? call with
      | none => rfl
      | some waiting => exact completeClosed_forgetful network waiting connection
  | turn => rfl

end Network

namespace PoolHistory

/-! ## Runs of one pool -/

/-- The history with a pool that keeps no connections. -/
def forgetful (history : PoolHistory) : PoolHistory :=
  { history with network := history.network.forgetful }

/-- What can be seen of a pool at an event: what its calls ask for and how they end, the record
of the transport, and what the pool says of itself. -/
structure Observation where
  requests : List Request
  outcomes : List (CallId × PoolOutcome)
  opened : List Connection
  refused : List Address
  closed : List Connection
  idleCount : Option Nat
  disposed : Option Bool
deriving DecidableEq

/-- What is seen of an event and right after it. -/
def observe (history : PoolHistory) (event : PoolEvent) : Observation :=
  let after := history.perform event
  { requests := after.2.requests
    outcomes := after.2.finished.map fun ended => (ended.call, ended.outcome)
    opened := after.1.opened
    refused := after.1.refused
    closed := after.1.closed
    idleCount := (after.1.pools[0]?).map Pool.idleCount
    disposed := (after.1.pools[0]?).map Pool.disposed }

/-- What is seen of several events, each at its time.  Also a connection that the pool never
lent may be given back to it. -/
def observations (history : PoolHistory) : List PoolEvent → List Observation
  | [] => []
  | event :: rest => history.observe event :: (history.extend event).observations rest

variable {history : PoolHistory} {pool : Pool}

theorem perform_forgetful (h : history.network.KeepsNone) (event : PoolEvent) :
    history.forgetful.perform event = Network.forget (history.perform event) := by
  have hnew : history.network.newCall.2.KeepsNone := h
  cases event with
  | acquire => exact Network.acquireAs_forgetful hnew _ () 0
  | release connection => exact Network.releaseAs_forgetful hnew _ () 0 connection
  | dispose => exact Network.disposeAs_forgetful hnew history.network.nextCall () [0]
  | answer completion => exact Network.complete_forgetful _ completion

theorem extend_forgetful (h : history.network.KeepsNone) (event : PoolEvent) :
    history.forgetful.extend event = (history.extend event).forgetful := by
  simp only [extend, perform_forgetful h]
  rfl

theorem Alone.keepsNone (h : history.Alone pool) (hpool : pool.KeepsNone) :
    history.network.KeepsNone := by
  rw [Network.KeepsNone, h.alone]
  exact List.forall_mem_singleton.2 hpool

theorem Alone.extend (h : history.Alone pool) (event : PoolEvent) :
    (history.extend event).Alone (pool.after event) :=
  ⟨h.pools_perform event⟩

/-- What is seen of the only pool. -/
theorem Alone.observe_idleCount (h : history.Alone pool) (event : PoolEvent) :
    (history.observe event).idleCount = some (pool.after event).idleCount := by
  simp [observe, h.pools_perform event]

/-- The map is seen at no event: a pool that keeps none counts as many as one that keeps
nothing. -/
theorem Alone.observe_forgetful (h : history.Alone pool) (hpool : pool.KeepsNone)
    (event : PoolEvent) : history.forgetful.observe event = history.observe event := by
  have hafter := hpool.after event
  have hcount : (pool.after event).forgetful.idleCount = (pool.after event).idleCount := by
    rw [Pool.idleCount, Pool.idleCount, hafter.idle_eq,
      (Pool.keepsNone_forgetful _).idle_eq]
  simp only [observe, perform_forgetful (h.keepsNone hpool), Network.forget,
    Network.forgetful_pool?, h.pools_perform event, List.getElem?_cons_zero, Option.map_some,
    hcount]
  rfl

theorem Alone.observations_forgetful (h : history.Alone pool) (hpool : pool.KeepsNone)
    (events : List PoolEvent) :
    history.forgetful.observations events = history.observations events := by
  induction events generalizing history pool with
  | nil => rfl
  | cons event rest ih =>
      rw [observations, observations, h.observe_forgetful hpool,
        extend_forgetful (h.keepsNone hpool), ih (h.extend event) (hpool.after event)]

theorem Alone.idleCount_of_mem (h : history.Alone pool) (hpool : pool.KeepsNone)
    {events : List PoolEvent} {seen : Observation} (hseen : seen ∈ history.observations events) :
    seen.idleCount = some 0 := by
  induction events generalizing history pool with
  | nil => cases hseen
  | cons event rest ih =>
      rcases List.mem_cons.1 hseen with rfl | hlater
      · rw [h.observe_idleCount, Pool.idleCount, (hpool.after event).idle_eq]
        rfl
      · exact ih (h.extend event) (hpool.after event) hlater

/-- A pool with capacity zero and a pool that keeps no connections, at one endpoint: whatever is
called on them, and whatever the transport answers at any time, each call asks for the same and
ends with the same outcome, the same connections are opened and closed in the same order, and
the pools say the same of themselves, in particular that they keep nothing. -/
theorem zero_capacity_is_no_reuse (endpoint : Address) (events : List PoolEvent) :
    (start (.bounded endpoint 0)).observations events =
        (start (.noReuse endpoint)).observations events ∧
      ∀ seen ∈ (start (.bounded endpoint 0)).observations events, seen.idleCount = some 0 := by
  have halone : (start (.bounded endpoint 0)).Alone (.bounded endpoint 0) := ⟨rfl⟩
  have hkept : (Pool.bounded endpoint 0).KeepsNone := .inl rfl
  have hmap : (start (.bounded endpoint 0)).forgetful = start (.noReuse endpoint) := rfl
  constructor
  · rw [← hmap, halone.observations_forgetful hkept]
  · exact fun seen hseen => halone.idleCount_of_mem hkept hseen

end PoolHistory
end RingRouting
