import Mathlib.Data.List.Induction
import RingRouting.Proofs.Network.Ledger

/-!
# Histories of one pool

What happens to a pool is a list of events: calls that are made on it, and answers of the
transport that these calls wait for.  Between two events every call is either ended or
waits, so that a list of events is one order in which calls interleave at the points where
they wait; an answer may let a connection open or refuse it at any time.

A history keeps, beside the pool and its calls, the connections that callers hold and those
they gave back.

Main results:

- `PoolHistory.run`: the history that a list of events makes.
- Theorem `PoolHistory.run_induction`: what one event keeps, a run of events keeps.
- Theorem `PoolHistory.Alone.pools_perform`: what each event does to the pool.
- Theorem `PoolHistory.Sound.extend`: every event keeps the ledger of the pool.
-/

namespace RingRouting

/-! ## Events -/

/-- What can happen to a pool. -/
inductive PoolEvent where
  /-- A caller wants a connection. -/
  | acquire
  /-- A connection is given back. -/
  | release (connection : Connection)
  | dispose
  /-- The transport answers; an answer that no call waits for changes nothing. -/
  | answer (completion : Completion)
deriving DecidableEq

namespace PoolEvent

/-- A connection can be given back by the one who holds it; anything else can happen at
any time. -/
def isPossible (lent : List Connection) : PoolEvent → Bool
  | release connection => lent.contains connection
  | _ => true

/-- The connections that callers still hold once the event's own connection was given
back. -/
def lentLeft (lent : List Connection) : PoolEvent → List Connection
  | release connection => lent.erase connection
  | _ => lent

/-- The connection that is given back, if one is. -/
def returned? : PoolEvent → Option Connection
  | release connection => some connection
  | _ => none

end PoolEvent

namespace Pool

/-- The pool after an event. -/
def after (pool : Pool) : PoolEvent → Pool
  | .acquire => pool.acquire.2
  | .release connection => (pool.release connection).2
  | .dispose => pool.dispose.2
  | .answer _ => pool

/-- A request leaves the pool as it is, or takes away the connection that it lends. -/
theorem after_acquire (pool : Pool) :
    pool.after .acquire = pool ∨
      ∃ connection, pool.idle = connection :: (pool.after .acquire).idle ∧
        (pool.after .acquire).endpoint = pool.endpoint ∧
        (pool.after .acquire).disposed = pool.disposed := by
  unfold after
  rcases pool.acquire_cases with
    ⟨-, h⟩ | ⟨-, -, h⟩ | ⟨connection, next, hlive, h, hidle, hsite, hnext⟩
  · exact .inl (by rw [h])
  · exact .inl (by rw [h])
  · refine .inr ⟨connection, ?_⟩
    rw [h]
    exact ⟨hidle, hsite, hnext.trans hlive.symm⟩

@[simp]
theorem after_endpoint (pool : Pool) (event : PoolEvent) :
    (pool.after event).endpoint = pool.endpoint := by
  cases event with
  | acquire =>
      rcases pool.after_acquire with hsame | ⟨-, -, hsite, -⟩
      · rw [hsame]
      · exact hsite
  | release connection => exact pool.release_endpoint connection
  | dispose => exact pool.dispose_endpoint
  | answer => rfl

end Pool

/-! ## Histories -/

/-- A pool with its calls, and what its callers have seen of it. -/
structure PoolHistory where
  /-- The pool, by number 0, its calls, and the record of the transport. -/
  network : Network Unit
  /-- The connections that were lent and have not been given back. -/
  lent : List Connection
  /-- The connections that were given back, the last one first. -/
  returned : List Connection

namespace PoolHistory

/-- The history of a pool to which nothing has happened. -/
def start (pool : Pool) : PoolHistory :=
  ⟨(Network.empty.addPool pool).2, [], []⟩

/-- The network after an event, and what the event brought about. -/
def perform (history : PoolHistory) : PoolEvent → Network Unit × Progress Unit
  | .acquire => (history.network.acquire () 0).2
  | .release connection => (history.network.release () 0 connection).2
  | .dispose => (history.network.dispose () [0]).2
  | .answer completion => history.network.complete completion

/-- The history after one more event that was possible. -/
def extend (history : PoolHistory) (event : PoolEvent) : PoolHistory :=
  let after := history.perform event
  { network := after.1
    lent := event.lentLeft history.lent ++ after.2.lent
    returned := event.returned?.toList ++ history.returned }

/-- The history after one more event; an event that is not possible changes nothing. -/
def step (history : PoolHistory) (event : PoolEvent) : PoolHistory :=
  if event.isPossible history.lent then history.extend event else history

/-- The history after several events. -/
def run (history : PoolHistory) (events : List PoolEvent) : PoolHistory :=
  events.foldl step history

@[simp]
theorem run_nil (history : PoolHistory) : history.run [] = history :=
  rfl

@[simp]
theorem run_concat (history : PoolHistory) (events : List PoolEvent) (event : PoolEvent) :
    history.run (events ++ [event]) = (history.run events).step event :=
  List.foldl_concat _ _ _ _

/-- What one event keeps, a run of events keeps.  The law may tell of the events so far. -/
theorem run_induction (Holds : List PoolEvent → PoolHistory → Prop) {history : PoolHistory}
    (hstart : Holds [] history)
    (hextend : ∀ events event, Holds events (history.run events) →
      event.isPossible (history.run events).lent = true →
        Holds (events ++ [event]) ((history.run events).extend event))
    (hskip : ∀ events event, Holds events (history.run events) →
      event.isPossible (history.run events).lent = false →
        Holds (events ++ [event]) (history.run events))
    (events : List PoolEvent) : Holds events (history.run events) := by
  induction events using List.reverseRecOn with
  | nil => exact hstart
  | append_singleton events event ih =>
      rw [run_concat, step]
      split
      next hpossible => exact hextend events event ih hpossible
      next himpossible => exact hskip events event ih (by simpa using himpossible)

end PoolHistory

/-! ## Steps of one pool -/

namespace Network

variable {Purpose : Type}

@[simp]
theorem closeAll_lent (network : Network Purpose) (call : CallId) (purpose : Purpose)
    (connections : List Connection) :
    (network.closeAll call purpose connections).2.lent = [] := by
  rcases closeAll_cases network call purpose connections with ⟨-, h⟩ | ⟨-, h⟩ <;> rw [h] <;> rfl

end Network

namespace PoolHistory

/-- The network holds this one pool. -/
structure Alone (history : PoolHistory) (pool : Pool) : Prop where
  alone : history.network.pools = [pool]

namespace Alone

variable {history : PoolHistory} {pool : Pool}

theorem pool_zero (h : history.Alone pool) : history.network.pools[0]? = some pool := by
  rw [h.alone]
  rfl

theorem eq_of_pool (h : history.Alone pool) {id : PoolId} {other : Pool}
    (hother : history.network.pools[id]? = some other) : other = pool := by
  rw [h.alone] at hother
  exact List.mem_singleton.1 (List.mem_of_getElem? hother)

/-- The three ways in which a request for a connection can begin. -/
theorem acquired (h : history.Alone pool) :
    (pool.disposed = true ∧ pool.after .acquire = pool ∧ history.perform .acquire =
        (history.network.newCall.2, .finish history.network.nextCall ()
          (.failed (.disposed pool.endpoint)))) ∨
      (pool.disposed = false ∧ pool.idle = [] ∧ pool.after .acquire = pool ∧
        history.perform .acquire =
          (history.network.newCall.2.suspend history.network.nextCall () (.opening 0),
            .ask [.opening history.network.nextCall pool.endpoint])) ∨
      ∃ connection, pool.disposed = false ∧
        pool.idle = connection :: (pool.after .acquire).idle ∧
        history.perform .acquire =
          (history.network.newCall.2.setPool 0 (pool.after .acquire),
            .finish history.network.nextCall () (.lent 0 connection)) := by
  have hpool := h.pool_zero
  simp only [perform, Network.acquire, Network.newCall, Network.acquireAs, hpool, Pool.after]
  rcases pool.acquire_cases with
    ⟨hdisposed, hcase⟩ | ⟨hlive, hidle, hcase⟩ | ⟨connection, after, hlive, hcase, hidle, -⟩
  · rw [hcase]
    exact .inl ⟨hdisposed, rfl, rfl⟩
  · rw [hcase]
    exact .inr (.inl ⟨hlive, hidle, rfl, rfl⟩)
  · rw [hcase]
    exact .inr (.inr ⟨connection, hlive, hidle, rfl⟩)

theorem perform_release (h : history.Alone pool) (connection : Connection) :
    history.perform (.release connection) =
      (history.network.newCall.2.setPool 0 (pool.release connection).2).closeAll
        history.network.nextCall () (pool.release connection).1.toList := by
  have hpool : history.network.newCall.2.pools[0]? = some pool := h.pool_zero
  exact Network.releaseAs_eq hpool _ () connection

/-- A connection that comes back and is not kept is asked to be closed, and no other is. -/
theorem requests_release (h : history.Alone pool) (connection : Connection) :
    (history.perform (.release connection)).2.requests =
      (pool.release connection).1.toList.map fun rejected =>
        .closing history.network.nextCall rejected := by
  rw [h.perform_release, Network.closeAll_requests]

theorem perform_dispose (h : history.Alone pool) :
    history.perform .dispose =
      (history.network.newCall.2.setPool 0 pool.dispose.2).closeAll
        history.network.nextCall () pool.dispose.1 := by
  have hpool := h.pool_zero
  simp only [perform, Network.dispose, Network.newCall, Network.disposeAs,
    Network.disposePools, hpool, List.append_nil]

/-- What each event does to the pool. -/
theorem pools_perform (h : history.Alone pool) (event : PoolEvent) :
    (history.perform event).1.pools = [pool.after event] := by
  have hset : ∀ after : Pool, (history.network.newCall.2.setPool 0 after).pools = [after] := by
    intro after
    simp only [Network.setPool, Network.newCall, h.alone, List.set_cons_zero]
  cases event with
  | acquire =>
      rcases h.acquired with ⟨-, hafter, hcase⟩ | ⟨-, -, hafter, hcase⟩ | ⟨_, -, -, hcase⟩
      · rw [hcase, hafter]
        exact h.alone
      · rw [hcase, hafter]
        exact h.alone
      · rw [hcase]
        exact hset _
  | release connection =>
      rw [h.perform_release, Network.closeAll_pools]
      exact hset _
  | dispose =>
      rw [h.perform_dispose, Network.closeAll_pools]
      exact hset _
  | answer completion => exact (history.network.completed completion).pools.trans h.alone

end Alone

/-! ## The ledger of one pool -/

/-- The network holds this one pool; its ledger balances with the connections that callers
hold; and these lead where the pool leads. -/
structure Sound (history : PoolHistory) (pool : Pool) : Prop extends Alone history pool where
  ledger : history.network.Ledger history.lent
  numbered : history.network.Numbered []
  homed : ∀ connection ∈ history.lent, connection.endpoint = pool.endpoint

theorem sound_start {pool : Pool} (hidle : pool.idle = []) : (start pool).Sound pool where
  alone := rfl
  ledger := Network.Ledger.empty.addPool hidle
  numbered := ⟨List.nodup_nil, fun _ h => absurd h List.not_mem_nil⟩
  homed := fun _ h => absurd h List.not_mem_nil

namespace Sound

variable {history : PoolHistory} {pool : Pool}

theorem tidy (h : history.Sound pool) : pool.Tidy :=
  h.ledger.pool_tidy h.pool_zero

theorem idle_eq (h : history.Sound pool) : history.network.idle = pool.idle := by
  simp [Network.idle, h.alone]

/-! ### Connections that are handed out -/

/-- A request hands out at once what the pool would lend next, if it keeps anything. -/
theorem lent_acquire (h : history.Sound pool) :
    (history.perform .acquire).2.lent = pool.idle.head?.toList := by
  rcases h.acquired with ⟨hdisposed, -, hcase⟩ | ⟨-, hidle, -, hcase⟩ |
    ⟨connection, -, hidle, hcase⟩
  · rw [hcase, h.tidy.quiet hdisposed]
    rfl
  · rw [hcase, hidle]
    rfl
  · rw [hcase, hidle]
    rfl

/-- While the pool is disposed no answer hands out a connection. -/
theorem lent_answer (h : history.Sound pool) (hdisposed : pool.disposed = true)
    (completion : Completion) : (history.perform (.answer completion)).2.lent = [] := by
  have hresult := history.network.completed completion
  simp only [perform]
  generalize history.network.complete completion = result at hresult
  cases hresult with
  | lent _ _ hpool hlive =>
      rw [h.eq_of_pool hpool, hdisposed] at hlive
      cases hlive
  | _ => rfl

/-- Once the pool is disposed no event hands out a connection. -/
theorem lent_perform (h : history.Sound pool) (hdisposed : pool.disposed = true)
    (event : PoolEvent) : (history.perform event).2.lent = [] := by
  cases event with
  | acquire =>
      rw [h.lent_acquire, h.tidy.quiet hdisposed]
      rfl
  | release connection => rw [h.perform_release, Network.closeAll_lent]
  | dispose => rw [h.perform_dispose, Network.closeAll_lent]
  | answer completion => exact h.lent_answer hdisposed completion

/-! ### Every event -/

/-- The calls that wait keep different numbers. -/
theorem numbered_perform (h : history.Sound pool) (event : PoolEvent) :
    (history.perform event).1.Numbered [] := by
  have hnew := h.numbered.newCall
  cases event with
  | acquire => exact hnew.acquired (Network.acquired _ _ _ _)
  | release connection => exact hnew.releaseAs () 0 connection
  | dispose => exact hnew.disposed (Network.disposed _ _ () [0])
  | answer completion =>
      exact (h.numbered.completed (history.network.completed completion)).finishAll

/-- The connections that callers hold stay in balance with the places of the network. -/
theorem ledger_extend (h : history.Sound pool) {event : PoolEvent}
    (hpossible : event.isPossible history.lent = true) :
    (history.extend event).network.Ledger (history.extend event).lent := by
  have hnew := h.ledger.newCall
  cases event with
  | acquire => exact hnew.acquired (Network.acquired _ _ _ _)
  | release connection =>
      have hlent : connection ∈ history.lent := by simpa [PoolEvent.isPossible] using hpossible
      have hpool : history.network.newCall.2.pools[0]? = some pool := h.pool_zero
      have hback := hnew.congr_lent (List.perm_cons_erase hlent)
      simp only [extend, h.perform_release, Network.closeAll_lent, List.append_nil,
        PoolEvent.lentLeft]
      rcases pool.release_cases connection with ⟨-, hkept, -⟩ | hrejected
      · rw [hkept]
        exact hback.kept hpool (h.homed connection hlent) hkept
      · rw [hrejected, Network.setPool_self hpool]
        exact hback.returned _ ()
  | dispose =>
      have hnone : (history.perform .dispose).2.lent = [] := by
        rw [h.perform_dispose, Network.closeAll_lent]
      have hresult := Network.disposed history.network.newCall.2 history.network.nextCall () [0]
      have hdisposed := hnew.disposed hresult
      simp only [extend, hnone, List.append_nil]
      exact hdisposed
  | answer completion =>
      exact h.ledger.completed h.numbered.callIds_nodup (history.network.completed completion)

/-- A connection that is handed out leads where the pool leads. -/
theorem homed_perform (h : history.Sound pool) (event : PoolEvent) :
    ∀ connection ∈ (history.perform event).2.lent, connection.endpoint = pool.endpoint := by
  intro connection hmem
  cases event with
  | acquire =>
      rw [h.lent_acquire, Option.mem_toList] at hmem
      exact h.tidy.homed connection (List.mem_of_head? hmem)
  | release back =>
      rw [h.perform_release, Network.closeAll_lent] at hmem
      cases hmem
  | dispose =>
      rw [h.perform_dispose, Network.closeAll_lent] at hmem
      cases hmem
  | answer completion =>
      have hresult := history.network.completed completion
      simp only [perform] at hmem
      generalize history.network.complete completion = result at hresult hmem
      cases hresult with
      | lent _ _ hpool =>
          rw [h.eq_of_pool hpool] at hmem
          rw [List.mem_singleton.1 hmem]
          rfl
      | _ => cases hmem

/-- Every event keeps the ledger of the pool. -/
theorem extend (h : history.Sound pool) {event : PoolEvent}
    (hpossible : event.isPossible history.lent = true) :
    (history.extend event).Sound (pool.after event) where
  alone := h.pools_perform event
  ledger := h.ledger_extend hpossible
  numbered := h.numbered_perform event
  homed := by
    intro connection hmem
    rw [Pool.after_endpoint]
    rcases List.mem_append.1 hmem with hleft | hnew
    · have hsub : ∀ c ∈ event.lentLeft history.lent, c ∈ history.lent := by
        cases event with
        | release back => exact fun c hc => List.mem_of_mem_erase hc
        | acquire | dispose | answer => exact fun c hc => hc
      exact h.homed connection (hsub connection hleft)
    · exact h.homed_perform event connection hnew

end Sound

end PoolHistory
end RingRouting
