import Mathlib.Data.List.Infix
import RingRouting.Proofs.Network.PoolSafety

/-!
# Pools that are large enough

A pool with a capacity opens a connection only where it keeps none.  As long as never more
connections are in use or asked for than it may keep, what comes back is kept, and so the
connections that were once needed at the same time are all that are ever opened.

Main definitions:

- `Network.OnlyOpens`, `Network.acquiring`: calls that wait for connections to open.
- `PoolHistory.inUse`: connections that callers hold, and requests for one under way.
- `PoolHistory.Thrifty`: nothing was closed, and all that is kept or in use has room.

Main results:

- Theorem `PoolHistory.Thrifty.extend`: every event but disposing keeps this, as long as no
  more are in use.
- Theorem `PoolHistory.opens_no_more_than_in_use`: how many connections a run opens.
-/

namespace RingRouting

/-- Whether the call that waits is to get a connection. -/
def Wait.isAcquiring : Wait → Bool
  | opening _ | discarding _ _ => true
  | closing _ => false

/-! ## Answers while nothing is given up -/

namespace Network

variable {Purpose : Type} {network : Network Purpose}

/-- No call waits but for a connection to open. -/
def OnlyOpens (network : Network Purpose) : Prop :=
  ∀ call ∈ network.calls, ∃ id, call.wait = .opening id

/-- The number of requests for a connection that are under way. -/
def acquiring (network : Network Purpose) : Nat :=
  network.calls.countP fun call => call.wait.isAcquiring

/-- No call holds a connection. -/
theorem OnlyOpens.held (h : network.OnlyOpens) : network.held = [] := by
  refine List.flatMap_eq_nil_iff.2 fun call hcall => ?_
  obtain ⟨id, hwait⟩ := h call hcall
  rw [hwait]
  rfl

/-- No connection is being closed. -/
theorem OnlyOpens.parting (h : network.OnlyOpens) : network.parting = [] := by
  refine List.flatMap_eq_nil_iff.2 fun call hcall => ?_
  obtain ⟨id, hwait⟩ := h call hcall
  rw [hwait]
  rfl

theorem OnlyOpens.suspend (h : network.OnlyOpens) (call : CallId) (purpose : Purpose)
    (id : PoolId) : (network.suspend call purpose (.opening id)).OnlyOpens := by
  intro other hother
  rcases List.mem_append.1 hother with hold | hnew
  · exact h other hold
  · exact ⟨id, by rw [List.mem_singleton.1 hnew]⟩

theorem OnlyOpens.resume (h : network.OnlyOpens) (call : CallId) :
    (network.resume call).OnlyOpens :=
  fun other hother => h other (List.mem_of_mem_filter hother)

/-- A request that is taken up again was under way. -/
theorem acquiring_resume (hnodup : network.callIds.Nodup) {waiting : Call Purpose}
    (hcall : waiting ∈ network.calls) {id : PoolId} (hwait : waiting.wait = .opening id) :
    network.acquiring = (network.resume waiting.id).acquiring + 1 := by
  rw [acquiring, (calls_perm_resume hnodup hcall).countP_eq, List.countP_cons, hwait]
  rfl

/-- Where calls wait for connections to open alone, and no pool is disposed, an answer lends a
connection to a request that was under way, or tells it that there is none; nothing is
closed. -/
theorem Completed.onlyOpens {result : Network Purpose × Progress Purpose}
    (h : network.Completed result) (hnodup : network.callIds.Nodup) (honly : network.OnlyOpens)
    (hlive : ∀ (id : PoolId) (pool : Pool), network.pools[id]? = some pool →
      pool.disposed = false) :
    result.1.OnlyOpens ∧ result.2.lent.length + result.1.acquiring ≤ network.acquiring ∧
      result.1.closed = network.closed := by
  cases h with
  | ignored => exact ⟨honly, Nat.le_of_eq (Nat.zero_add _), rfl⟩
  | @lent waiting _ _ hcall hwait =>
      have hcount := acquiring_resume hnodup hcall hwait
      refine ⟨honly.resume waiting.id, ?_, rfl⟩
      rw [hcount, Nat.add_comm]
      exact Nat.le_refl _
  | @unreachable waiting _ _ _ hcall hwait =>
      have hcount := acquiring_resume hnodup hcall hwait
      refine ⟨honly.resume waiting.id, ?_, rfl⟩
      rw [hcount]
      exact Nat.le_trans (Nat.le_of_eq (Nat.zero_add _)) (Nat.le_succ _)
  | late _ _ hpool hdisposed =>
      rw [hlive _ _ hpool] at hdisposed
      cases hdisposed
  | @discarded waiting _ _ _ hcall hwait =>
      obtain ⟨_, hopening⟩ := honly waiting hcall
      rw [hwait] at hopening
      cases hopening
  | @lastClosed waiting _ _ hcall hwait =>
      obtain ⟨_, hopening⟩ := honly waiting hcall
      rw [hwait] at hopening
      cases hopening
  | @oneClosed waiting _ _ hcall hwait =>
      obtain ⟨_, hopening⟩ := honly waiting hcall
      rw [hwait] at hopening
      cases hopening

end Network

namespace PoolHistory

variable {history : PoolHistory} {pool : Pool} {capacity most : Nat}

/-- The number of connections that callers hold and of requests for one that are under way. -/
def inUse (history : PoolHistory) : Nat :=
  history.lent.length + history.network.acquiring

theorem inUse_extend (history : PoolHistory) (event : PoolEvent) :
    (history.extend event).inUse = (event.lentLeft history.lent).length +
      ((history.perform event).2.lent.length + (history.perform event).1.acquiring) := by
  simp only [inUse, extend, List.length_append, Nat.add_assoc]

/-- The pool is not disposed; calls wait for connections to open alone, and none was closed; and
no more than `most` connections are kept, in use or asked for. -/
structure Thrifty (history : PoolHistory) (capacity most : Nat) (pool : Pool) : Prop where
  sound : history.Sound pool
  sized : pool.capacity? = some capacity
  live : pool.disposed = false
  onlyOpens : history.network.OnlyOpens
  closed : history.network.closed = []
  room : pool.idle.length + history.inUse ≤ most

namespace Thrifty

theorem start (endpoint : Address) (capacity most : Nat) :
    (PoolHistory.start (.bounded endpoint capacity)).Thrifty capacity most
      (.bounded endpoint capacity) where
  sound := sound_start rfl
  sized := rfl
  live := rfl
  onlyOpens := fun _ h => absurd h List.not_mem_nil
  closed := rfl
  room := Nat.zero_le most

/-- All connections that were opened are kept or in use. -/
theorem length_opened_le (h : history.Thrifty capacity most pool) :
    history.network.opened.length ≤ most := by
  have hlength := h.sound.perm.length_eq
  have hroom := h.room
  rw [h.onlyOpens.held, h.onlyOpens.parting, h.closed] at hlength
  simp only [List.length_append, List.length_nil, inUse] at hlength hroom
  omega

/-! ## Events -/

/-- What is left to show of an event that does not dispose the pool. -/
theorem extend_of {event : PoolEvent} (h : history.Thrifty capacity most pool)
    (hpossible : event.isPossible history.lent = true) (hlive : event ≠ .dispose)
    (honly : (history.perform event).1.OnlyOpens)
    (hclosed : (history.perform event).1.closed = history.network.closed)
    (hroom : (pool.after event).idle.length + (history.extend event).inUse ≤ most) :
    (history.extend event).Thrifty capacity most (pool.after event) where
  sound := h.sound.extend hpossible
  sized := (pool.after_capacity? event).trans h.sized
  live := by
    rw [← Bool.not_eq_true, Pool.disposed_after, h.live]
    exact not_or.2 ⟨Bool.false_ne_true, hlive⟩
  onlyOpens := honly
  closed := hclosed.trans h.closed
  room := hroom

/-- A request that can be met at once has one connection less kept and one more in use.  Where
nothing is kept it is under way, and all that counts is in use. -/
theorem acquire (h : history.Thrifty capacity most pool)
    (hmost : (history.extend .acquire).inUse ≤ most) :
    (history.extend .acquire).Thrifty capacity most (pool.after .acquire) := by
  have hroom := h.room
  rcases h.sound.acquired with
    ⟨hdisposed, -⟩ | ⟨-, hidle, hafter, hcase⟩ | ⟨connection, -, hidle, hcase⟩
  · rw [h.live] at hdisposed
    cases hdisposed
  · refine h.extend_of rfl PoolEvent.noConfusion ?_ (by rw [hcase]; rfl) ?_
    · rw [hcase]
      exact h.onlyOpens.suspend _ () 0
    · rw [hafter, hidle]
      exact Nat.le_trans (Nat.le_of_eq (Nat.zero_add _)) hmost
  · have hcount : (history.extend .acquire).inUse = history.inUse + 1 := by
      rw [inUse_extend, hcase]
      change history.lent.length + (1 + history.network.acquiring) = _
      rw [inUse]
      omega
    refine h.extend_of rfl PoolEvent.noConfusion ?_ (by rw [hcase]; rfl) ?_
    · rw [hcase]
      exact h.onlyOpens
    · rw [hidle, List.length_cons] at hroom
      omega

/-- A connection that comes back finds room, since it was in use. -/
theorem release (h : history.Thrifty capacity most pool) (hmost : most ≤ capacity)
    {connection : Connection} (hlent : connection ∈ history.lent) :
    (history.extend (.release connection)).Thrifty capacity most
      (pool.after (.release connection)) := by
  have hroom := h.room
  have hpos := List.length_pos_of_mem hlent
  have hlength := List.length_erase_of_mem hlent
  rw [inUse] at hroom
  obtain ⟨hnone, hidle⟩ :=
    Pool.release_of_room h.sized connection h.live (by omega)
  have hcase := h.sound.perform_release connection
  rw [hnone] at hcase
  refine h.extend_of (by simpa [PoolEvent.isPossible] using hlent) PoolEvent.noConfusion ?_
    (by rw [hcase]; rfl) ?_
  · rw [hcase]
    exact h.onlyOpens
  · have hcount : (history.extend (.release connection)).inUse =
        (history.lent.erase connection).length + (0 + history.network.acquiring) := by
      rw [inUse_extend, hcase]
      rfl
    rw [hcount, Pool.after, hidle, List.length_cons]
    omega

theorem answer (h : history.Thrifty capacity most pool) (completion : Completion) :
    (history.extend (.answer completion)).Thrifty capacity most
      (pool.after (.answer completion)) := by
  obtain ⟨honly, hcount, hclosed⟩ := (history.network.completed completion).onlyOpens
    h.sound.numbered.callIds_nodup h.onlyOpens fun _ _ hpool => h.sound.eq_of_pool hpool ▸ h.live
  refine h.extend_of rfl PoolEvent.noConfusion honly hclosed ?_
  have hroom := h.room
  rw [inUse] at hroom
  rw [inUse_extend]
  change pool.idle.length + (history.lent.length + _) ≤ most
  have hsame : history.perform (.answer completion) = history.network.complete completion := rfl
  rw [hsame]
  omega

/-- Every event but disposing keeps this, as long as no more are in use. -/
theorem extend {event : PoolEvent} (h : history.Thrifty capacity most pool)
    (hmost : most ≤ capacity) (hpossible : event.isPossible history.lent = true)
    (hlive : event ≠ .dispose) (hinUse : (history.extend event).inUse ≤ most) :
    (history.extend event).Thrifty capacity most (pool.after event) := by
  cases event with
  | acquire => exact h.acquire hinUse
  | release connection =>
      exact h.release hmost (by simpa [PoolEvent.isPossible] using hpossible)
  | dispose => exact absurd rfl hlive
  | answer completion => exact h.answer completion

end Thrifty

/-- A pool that keeps up to `capacity` connections is never disposed, and at each time no more
than `most` connections are lent or asked for, which is not above the capacity.  Then no more
than `most` connections are opened in the whole run, and none is closed or being closed. -/
theorem opens_no_more_than_in_use {capacity most : Nat} (endpoint : Address)
    (hmost : most ≤ capacity) {events : List PoolEvent} (hlive : .dispose ∉ events)
    (hinUse : ∀ before, before <+: events →
      ((start (.bounded endpoint capacity)).run before).inUse ≤ most) :
    let now := (start (.bounded endpoint capacity)).run events
    now.network.opened.length ≤ most ∧ now.network.closed = [] ∧
      now.network.parting = [] ∧ now.network.held = [] := by
  intro now
  obtain ⟨pool, h⟩ : ∃ pool, now.Thrifty capacity most pool := by
    refine run_induction (fun events history => .dispose ∉ events →
        (∀ before, before <+: events →
          ((start (.bounded endpoint capacity)).run before).inUse ≤ most) →
          ∃ pool, history.Thrifty capacity most pool) ?_ ?_ ?_ events hlive hinUse
    · exact fun _ _ => ⟨_, .start endpoint capacity most⟩
    · intro events event ih hpossible hlive hinUse
      rw [List.mem_append, List.mem_singleton, not_or] at hlive
      obtain ⟨pool, h⟩ := ih hlive.1 fun before hbefore =>
        hinUse before (hbefore.trans (List.prefix_append _ _))
      have hafter := hinUse _ (List.prefix_refl _)
      rw [run_concat, step, if_pos hpossible] at hafter
      exact ⟨_, h.extend hmost hpossible (Ne.symm hlive.2) hafter⟩
    · intro events event ih _ hlive hinUse
      rw [List.mem_append, not_or] at hlive
      exact ih hlive.1 fun before hbefore =>
        hinUse before (hbefore.trans (List.prefix_append _ _))
  exact ⟨h.length_opened_le, h.closed, h.onlyOpens.parting, h.onlyOpens.held⟩

/-- Five requests, of which the first cannot be met because the endpoint is not reached; at most
two connections are lent or asked for at any time, and two are opened. -/
theorem opens_no_more_than_in_use_of_five_requests : ∃ site events now,
    now = (start (.bounded site 3)).run events ∧ .dispose ∉ events ∧
      (∀ before, before <+: events → ((start (.bounded site 3)).run before).inUse ≤ 2) ∧
      events.count .acquire = 5 ∧ now.network.refused = [site] ∧
      now.returned = [⟨0, site⟩, ⟨1, site⟩, ⟨0, site⟩] ∧
      now.network.opened.length ≤ 2 ∧ now.network.closed = [] := by
  let site : Address := .ofQuad 10 0 0 1
  let events : List PoolEvent := [.acquire, .acquire,
    .answer (.unreachable 0 (.io site "connection refused")), .answer (.opened 1),
    .release ⟨0, site⟩, .acquire, .acquire, .answer (.opened 4), .release ⟨1, site⟩,
    .release ⟨0, site⟩, .acquire]
  have hlive : .dispose ∉ events := by decide +kernel
  have hinUse : ∀ before, before <+: events →
      ((start (.bounded site 3)).run before).inUse ≤ 2 := by
    simp only [← List.mem_inits]
    decide +kernel
  have hlaw := opens_no_more_than_in_use site (by decide : 2 ≤ 3) hlive hinUse
  refine ⟨site, events, _, rfl, hlive, hinUse, ?_, ?_, ?_, hlaw.1, hlaw.2.1⟩
  all_goals decide +kernel

end PoolHistory
end RingRouting
