import RingRouting.Proofs.Network.Standing

/-!
# Where connections are

A connection that was opened is kept by a pool, or lent, or held by a call that waits, or
closed.  A call that waits holds a connection either because it asked for one that came
too late, or because it is to see the end of it.  The ledger of a network counts each
connection in these places; every step moves connections from one place to another and
never loses or doubles one.

Main results:

- Theorem `Network.Ledger.perm`: the places together hold exactly what was opened.
- Theorems `Network.Ledger.acquired`, `Network.Ledger.kept`, `Network.Ledger.returned`,
  `Network.Ledger.disposed`, `Network.Ledger.completed`: each step keeps the ledger.
-/

namespace RingRouting

/-! ## Places -/

/-- The connection that a call which asked for one holds, and is to see closed. -/
def Wait.held : Wait → List Connection
  | discarding _ connection => [connection]
  | _ => []

/-- The connections whose end a call waits for. -/
def Wait.parting : Wait → List Connection
  | closing left => left
  | _ => []

/-- The connection that is handed out. -/
def PoolOutcome.connection? : PoolOutcome → Option Connection
  | lent _ connection => some connection
  | _ => none

/-- The connections that a step has handed out. -/
def Progress.lent {Purpose : Type} (progress : Progress Purpose) : List Connection :=
  progress.finished.filterMap fun ended => ended.outcome.connection?

namespace Network

variable {Purpose : Type}

/-- The connections that pools keep. -/
def idle (network : Network Purpose) : List Connection :=
  network.pools.flatMap Pool.idle

/-- The connections that calls hold which asked for one. -/
def held (network : Network Purpose) : List Connection :=
  network.calls.flatMap fun call => call.wait.held

/-- The connections whose end is waited for. -/
def parting (network : Network Purpose) : List Connection :=
  network.calls.flatMap fun call => call.wait.parting

/-! ## Counting -/

/-- What one place of a list contributes is exchanged when the place is. -/
theorem count_flatMap_set {α : Type} (f : α → List Connection) (c : Connection) {list : List α}
    {place : Nat} {old : α} (hold : list[place]? = some old) (new : α) :
    ((list.set place new).flatMap f).count c + (f old).count c =
      (list.flatMap f).count c + (f new).count c := by
  induction list generalizing place with
  | nil => cases hold
  | cons first rest ih =>
      cases place with
      | zero =>
          cases hold
          simp only [List.set_cons_zero, List.flatMap_cons, List.count_append]
          omega
      | succ place =>
          have hrest := ih hold
          simp only [List.set_cons_succ, List.flatMap_cons, List.count_append]
          omega

theorem count_idle_setPool {network : Network Purpose} {id : PoolId} {pool : Pool}
    (hpool : network.pools[id]? = some pool) (after : Pool) (c : Connection) :
    (network.setPool id after).idle.count c + pool.idle.count c =
      network.idle.count c + after.idle.count c :=
  count_flatMap_set Pool.idle c hpool after

/-- What a call holds is with it while it waits. -/
theorem count_flatMap_suspend (f : Wait → List Connection) (network : Network Purpose)
    (call : CallId) (purpose : Purpose) (wait : Wait) (c : Connection) :
    (((network.suspend call purpose wait).calls).flatMap fun call => f call.wait).count c =
      (network.calls.flatMap fun call => f call.wait).count c + (f wait).count c := by
  simp [suspend, List.count_append]

theorem count_flatMap_resume (f : Wait → List Connection) {network : Network Purpose}
    {waiting : Call Purpose} (hnodup : network.callIds.Nodup) (hcall : waiting ∈ network.calls)
    (c : Connection) :
    (network.calls.flatMap fun call => f call.wait).count c =
      (((network.resume waiting.id).calls).flatMap fun call => f call.wait).count c +
        (f waiting.wait).count c := by
  have hperm := (calls_perm_resume hnodup hcall).flatMap_right fun call => f call.wait
  rw [hperm.count_eq, List.flatMap_cons, List.count_append, Nat.add_comm]

/-- Disposing hands over exactly what the pools kept. -/
theorem count_idle_disposePools (ids : List PoolId) (network : Network Purpose)
    (c : Connection) :
    (network.disposePools ids).2.idle.count c + (network.disposePools ids).1.count c =
      network.idle.count c := by
  induction ids generalizing network with
  | nil => simp [disposePools]
  | cons id rest ih =>
      unfold disposePools
      split
      · exact ih network
      · rename_i pool hpool
        have hset := count_idle_setPool hpool pool.dispose.2 c
        have hrest := ih (network.setPool id pool.dispose.2)
        rw [Pool.dispose_idle, List.count_nil] at hset
        simp only [List.count_append]
        rw [Pool.dispose_drained, List.count_reverse]
        omega

/-! ## The ledger -/

/-- Of each connection there is as much in all places, the lent ones included, as was
opened; connections are numbered in the order of their opening; and pools are tidy. -/
structure Ledger (network : Network Purpose) (lent : List Connection) : Prop where
  balance : ∀ c, network.opened.count c =
    network.idle.count c + lent.count c + network.held.count c + network.parting.count c +
      network.closed.count c
  numbered : network.opened.map Connection.id = List.range network.opened.length
  tidy : ∀ pool ∈ network.pools, pool.Tidy

namespace Ledger

variable {network : Network Purpose} {lent : List Connection}

/-- The places together hold what was opened. -/
theorem perm (h : network.Ledger lent) :
    network.opened.Perm
      (network.idle ++ lent ++ network.held ++ network.parting ++ network.closed) := by
  apply List.perm_iff_count.2
  intro c
  simp only [List.count_append]
  exact h.balance c

/-- No connection is opened twice. -/
theorem opened_nodup (h : network.Ledger lent) : network.opened.Nodup := by
  apply List.Nodup.of_map Connection.id
  rw [h.numbered]
  exact List.nodup_range

theorem empty : (Network.empty : Network Purpose).Ledger [] where
  balance := fun _ => rfl
  numbered := rfl
  tidy := fun _ h => absurd h List.not_mem_nil

/-- It does not matter in which order the lent connections are listed. -/
theorem congr_lent {listed : List Connection} (h : network.Ledger lent)
    (hperm : lent.Perm listed) : network.Ledger listed where
  balance := by
    intro c
    rw [← hperm.count_eq]
    exact h.balance c
  numbered := h.numbered
  tidy := h.tidy

theorem newCall (h : network.Ledger lent) : network.newCall.2.Ledger lent :=
  ⟨h.balance, h.numbered, h.tidy⟩

theorem addPool (h : network.Ledger lent) {pool : Pool} (hidle : pool.idle = []) :
    (network.addPool pool).2.Ledger lent where
  balance := by
    intro c
    have hsame : (network.addPool pool).2.idle = network.idle := by
      simp [Network.addPool, idle, hidle]
    rw [hsame]
    exact h.balance c
  numbered := h.numbered
  tidy := by
    intro other hother
    rcases List.mem_append.1 hother with hold | hnew
    · exact h.tidy other hold
    · rw [List.mem_singleton.1 hnew]
      refine ⟨fun _ => hidle, ?_⟩
      rw [hidle]
      exact fun _ hmem => absurd hmem List.not_mem_nil

/-- Tidy pools stay so when one is replaced by a tidy one. -/
theorem tidy_setPool (h : network.Ledger lent) {id : PoolId} {after : Pool}
    (hafter : after.Tidy) : ∀ pool ∈ (network.setPool id after).pools, pool.Tidy := by
  intro pool hpool
  rcases List.mem_or_eq_of_mem_set hpool with hold | rfl
  · exact h.tidy pool hold
  · exact hafter

theorem pool_tidy (h : network.Ledger lent) {id : PoolId} {pool : Pool}
    (hpool : network.pools[id]? = some pool) : pool.Tidy :=
  h.tidy pool (List.mem_of_getElem? hpool)

/-- A call takes connections that were lent, to see them closed. -/
theorem suspend (h : network.Ledger lent) (call : CallId) (purpose : Purpose) (wait : Wait)
    {rest : List Connection}
    (hsplit : ∀ c, lent.count c = rest.count c + wait.held.count c + wait.parting.count c) :
    (network.suspend call purpose wait).Ledger rest where
  balance := by
    intro c
    have hbalance := h.balance c
    have hheld := count_flatMap_suspend Wait.held network call purpose wait c
    have hparting := count_flatMap_suspend Wait.parting network call purpose wait c
    have hlent := hsplit c
    simp only [held, parting] at hbalance hheld hparting ⊢
    rw [hheld, hparting]
    simp only [Network.suspend, idle] at hbalance ⊢
    omega
  numbered := h.numbered
  tidy := h.tidy

/-- A call that waits is taken up with what it holds. -/
theorem resume (h : network.Ledger lent) {waiting : Call Purpose}
    (hnodup : network.callIds.Nodup) (hcall : waiting ∈ network.calls) :
    (network.resume waiting.id).Ledger
      (lent ++ waiting.wait.held ++ waiting.wait.parting) where
  balance := by
    intro c
    have hbalance := h.balance c
    have hheld := count_flatMap_resume Wait.held hnodup hcall c
    have hparting := count_flatMap_resume Wait.parting hnodup hcall c
    simp only [held, parting] at hbalance ⊢
    rw [hheld, hparting] at hbalance
    simp only [Network.resume, idle, List.count_append] at hbalance ⊢
    omega
  numbered := h.numbered
  tidy := h.tidy

/-- The transport opens the next connection. -/
theorem withOpened (h : network.Ledger lent) (endpoint : Address) :
    (network.withOpened (network.nextConnection endpoint)).Ledger
      (lent ++ [network.nextConnection endpoint]) where
  balance := by
    intro c
    have hbalance := h.balance c
    simp only [Network.withOpened, idle, held, parting, List.count_append] at hbalance ⊢
    omega
  numbered := by
    simp [Network.withOpened, nextConnection, h.numbered, List.range_succ]
  tidy := h.tidy

theorem withRefused (h : network.Ledger lent) (endpoint : Address) :
    (network.withRefused endpoint).Ledger lent :=
  ⟨h.balance, h.numbered, h.tidy⟩

/-- The transport closes a connection. -/
theorem withClosed {connection : Connection} (h : network.Ledger (lent ++ [connection])) :
    (network.withClosed connection).Ledger lent where
  balance := by
    intro c
    have hbalance := h.balance c
    simp only [Network.withClosed, idle, held, parting, List.count_append] at hbalance ⊢
    omega
  numbered := h.numbered
  tidy := h.tidy

/-! ## Steps -/

/-- A request for a connection lends one that was kept, or nothing yet. -/
theorem acquired (h : network.Ledger lent) {call : CallId} {purpose : Purpose} {id : PoolId}
    {result : Network Purpose × Progress Purpose}
    (hresult : network.Acquired call purpose id result) :
    result.1.Ledger (lent ++ result.2.lent) := by
  cases hresult with
  | missing => exact h.congr_lent (by simp [Progress.lent, Progress.none])
  | refused =>
      exact h.congr_lent (by simp [Progress.lent, Progress.finish, PoolOutcome.connection?])
  | opening =>
      refine h.suspend call purpose _ ?_
      intro c
      simp [Progress.lent, Progress.ask, Wait.held, Wait.parting]
  | @reused pool after connection hpool hreused =>
      have htidy := (h.pool_tidy hpool).acquire hreused
      refine ⟨?_, h.numbered, h.tidy_setPool htidy.1⟩
      intro c
      have hbalance := h.balance c
      have hset := count_idle_setPool hpool after c
      have hidle : pool.idle = connection :: after.idle := by
        rcases pool.acquire_cases with ⟨-, hcase⟩ | ⟨-, -, hcase⟩ | ⟨_, _, -, hcase, hidle, -⟩
        · rw [hcase] at hreused
          cases hreused
        · rw [hcase] at hreused
          cases hreused
        · rw [hcase] at hreused
          cases hreused
          exact hidle
      rw [hidle, List.count_cons] at hset
      simp only [Progress.lent, Progress.finish, PoolOutcome.connection?,
        List.filterMap_cons, List.filterMap_nil, List.count_append, List.count_cons,
        List.count_nil, setPool, held, parting] at hbalance hset ⊢
      omega

/-- A connection comes back and is kept. -/
theorem kept {connection : Connection} (h : network.Ledger (connection :: lent))
    {id : PoolId} {pool : Pool} (hpool : network.pools[id]? = some pool)
    (hsite : connection.endpoint = pool.endpoint)
    (hkept : (pool.release connection).1 = none) :
    (network.setPool id (pool.release connection).2).Ledger lent where
  balance := by
    intro c
    have hbalance := h.balance c
    have hset := count_idle_setPool hpool (pool.release connection).2 c
    have hrelease := pool.count_release connection c
    rw [hkept] at hrelease
    simp only [List.count_cons, Option.toList_none, List.count_nil, setPool, held,
      parting] at hbalance hset hrelease ⊢
    omega
  numbered := h.numbered
  tidy := h.tidy_setPool ((h.pool_tidy hpool).release hsite)

/-- A connection comes back and is to be closed. -/
theorem returned {connection : Connection} (h : network.Ledger (connection :: lent))
    (call : CallId) (purpose : Purpose) :
    (network.suspend call purpose (.closing [connection])).Ledger lent := by
  refine h.suspend call purpose _ ?_
  intro c
  simp [Wait.held, Wait.parting, List.count_cons]

/-- Pools that are disposed stay tidy. -/
theorem tidy_disposePools (h : network.Ledger lent) (ids : List PoolId) :
    ∀ pool ∈ (network.disposePools ids).2.pools, pool.Tidy := by
  intro pool hpool
  obtain ⟨id, hid⟩ := List.mem_iff_getElem?.1 hpool
  rw [disposePools_pools] at hid
  split at hid
  · obtain ⟨old, -, rfl⟩ := Option.map_eq_some_iff.1 hid
    exact Pool.Tidy.dispose old
  · exact h.pool_tidy hid

/-- What disposed pools kept is waited for. -/
theorem disposed (h : network.Ledger lent) {call : CallId} {purpose : Purpose}
    {ids : List PoolId} {result : Network Purpose × Progress Purpose}
    (hresult : network.Disposed call purpose ids result) : result.1.Ledger lent := by
  have hpools := disposePools_eq ids network
  -- for a moment what the pools kept counts as lent
  have hdrained : (network.disposePools ids).2.Ledger
      (lent ++ (network.disposePools ids).1) := by
    refine ⟨?_, by rw [hpools]; exact h.numbered, h.tidy_disposePools ids⟩
    intro c
    have hbalance := h.balance c
    have hcount := count_idle_disposePools ids network c
    have hopened : (network.disposePools ids).2.opened = network.opened := by rw [hpools]
    have hclosed : (network.disposePools ids).2.closed = network.closed := by rw [hpools]
    have hcalls : (network.disposePools ids).2.calls = network.calls := by rw [hpools]
    simp only [held, parting, hopened, hclosed, hcalls, List.count_append] at hbalance ⊢
    omega
  cases hresult with
  | quiet hquiet => exact hdrained.congr_lent (by simp [hquiet])
  | closing =>
      refine hdrained.suspend call purpose _ ?_
      intro c
      simp [Wait.held, Wait.parting]

/-- An answer of the transport lends a connection that was opened, or moves one on. -/
theorem completed (h : network.Ledger lent) (hnodup : network.callIds.Nodup)
    {result : Network Purpose × Progress Purpose} (hresult : network.Completed result) :
    result.1.Ledger (lent ++ result.2.lent) := by
  cases hresult with
  | ignored => exact h.congr_lent (by simp [Progress.lent, Progress.none])
  | @lent waiting id pool hcall hwait =>
      have hresumed := h.resume hnodup hcall
      simp only [hwait, Wait.held, Wait.parting, List.append_nil] at hresumed
      exact hresumed.withOpened pool.endpoint
  | @late waiting id pool hcall hwait =>
      have hresumed := h.resume hnodup hcall
      simp only [hwait, Wait.held, Wait.parting, List.append_nil] at hresumed
      refine (hresumed.withOpened pool.endpoint).suspend _ _ _ ?_
      intro c
      simp [Progress.lent, Progress.ask, Wait.held, Wait.parting, nextConnection,
        Network.resume]
  | @unreachable waiting id pool _ hcall hwait =>
      have hresumed := h.resume hnodup hcall
      simp only [hwait, Wait.held, Wait.parting, List.append_nil] at hresumed
      exact (hresumed.withRefused pool.endpoint).congr_lent
        (by simp [Progress.lent, Progress.finish, PoolOutcome.connection?])
  | @discarded waiting id pool connection hcall hwait =>
      have hresumed := h.resume hnodup hcall
      simp only [hwait, Wait.held, Wait.parting, List.append_nil] at hresumed
      exact hresumed.withClosed.congr_lent
        (by simp [Progress.lent, Progress.finish, PoolOutcome.connection?])
  | @lastClosed waiting left connection hcall hwait hmem hlast =>
      have hresumed := h.resume hnodup hcall
      have hleft : left.Perm [connection] := by
        rw [← hlast]
        exact List.perm_cons_erase hmem
      simp only [hwait, Wait.held, Wait.parting, List.append_nil] at hresumed
      have hone := hresumed.congr_lent (hleft.append_left lent)
      exact hone.withClosed.congr_lent
        (by simp [Progress.lent, Progress.finish, PoolOutcome.connection?])
  | @oneClosed waiting left connection hcall hwait hmem =>
      have hresumed := h.resume hnodup hcall
      have hleft : (lent ++ left).Perm (lent ++ left.erase connection ++ [connection]) := by
        rw [List.append_assoc]
        exact ((List.perm_cons_erase hmem).trans
          (List.perm_append_singleton _ _).symm).append_left lent
      simp only [hwait, Wait.held, Wait.parting, List.append_nil] at hresumed
      refine (hresumed.congr_lent hleft).withClosed.suspend _ _ _ ?_
      intro c
      simp [Progress.lent, Progress.none, Wait.held, Wait.parting]

end Ledger

/-! ## Where connections lead -/

/-- A pool with that number there is, and it leads to the endpoint. -/
def Leads (network : Network Purpose) (id : PoolId) (endpoint : Address) : Prop :=
  ∃ disposed, network.standings[id]? = some (endpoint, disposed)

namespace Leads

variable {network after : Network Purpose} {id : PoolId} {endpoint : Address}

theorem congr (h : network.Leads id endpoint) (hsame : after.standings = network.standings) :
    after.Leads id endpoint := by
  unfold Leads
  rw [hsame]
  exact h

theorem addPool (h : network.Leads id endpoint) (pool : Pool) :
    (network.addPool pool).2.Leads id endpoint := by
  obtain ⟨disposed, hstanding⟩ := h
  refine ⟨disposed, ?_⟩
  rw [standings_addPool_of_lt (lt_length_of_standing hstanding)]
  exact hstanding

theorem disposed {call : CallId} {purpose : Purpose} {ids : List PoolId}
    {result : Network Purpose × Progress Purpose} (h : network.Leads id endpoint)
    (hresult : network.Disposed call purpose ids result) : result.1.Leads id endpoint := by
  obtain ⟨disposed, hstanding⟩ := h
  unfold Leads
  rw [hresult.standings, hstanding]
  split
  · exact ⟨true, rfl⟩
  · exact ⟨disposed, rfl⟩

/-- A pool leads to one endpoint. -/
theorem unique (h : network.Leads id endpoint) {other : Address}
    (hother : network.Leads id other) : endpoint = other := by
  rcases h with ⟨disposed, hstanding⟩
  rcases hother with ⟨_, hsame⟩
  rw [hstanding] at hsame
  cases hsame
  rfl

end Leads

theorem leads_of_pool {network : Network Purpose} {id : PoolId} {pool : Pool}
    (hpool : network.pools[id]? = some pool) : network.Leads id pool.endpoint :=
  ⟨pool.disposed, standing_of_pool hpool⟩

/-- A connection that was opened is lent by a pool that leads where it leads. -/
theorem Completed.leads {network : Network Purpose}
    {result : Network Purpose × Progress Purpose} (h : network.Completed result)
    {call : CallId} {purpose : Purpose} {id : PoolId} {connection : Connection}
    (hended : ⟨call, purpose, .lent id connection⟩ ∈ result.2.finished) :
    result.1.Leads id connection.endpoint := by
  refine Leads.congr ?_ h.standings
  cases h with
  | ignored => cases hended
  | late => cases hended
  | oneClosed => cases hended
  | unreachable => simp [Progress.finish] at hended
  | discarded => simp [Progress.finish] at hended
  | lastClosed => simp [Progress.finish] at hended
  | lent _ _ hpool =>
      simp only [Progress.finish, List.mem_singleton, Finished.mk.injEq,
        PoolOutcome.lent.injEq] at hended
      obtain ⟨-, -, rfl, rfl⟩ := hended
      exact leads_of_pool hpool

end Network
end RingRouting
