import RingRouting.Proofs.Network.PoolHistory

/-!
# Safety of pools that keep connections

A pool with a capacity may be asked for connections, given them back and disposed in any
order, while connections it asked for open late or not at all.  The laws here hold after
every list of events, and tell what the next event can do.

Main results:

- Theorems `Pool.release_of_full` and `Pool.release_of_room`: when a connection that comes
  back is kept.
- Theorem `PoolHistory.Recent.find?_returned`: the pool lends the kept connection that was
  given back last.
- Theorem `PoolHistory.bounded_pool_safe`: all laws together, over every run.
-/

namespace RingRouting
namespace Pool

/-! ## Pools with a capacity -/

@[simp]
theorem after_capacity? (pool : Pool) (event : PoolEvent) :
    (pool.after event).capacity? = pool.capacity? := by
  rcases pool with ⟨endpoint, retention, disposed⟩
  cases event with
  | acquire =>
      cases disposed with
      | true => rfl
      | false => rcases retention with ⟨capacity, _ | _⟩ | _ <;> rfl
  | release connection =>
      cases retention with
      | bounded capacity idle =>
          simp only [after, release]
          split <;> rfl
      | noReuse => rfl
  | dispose => cases retention <;> rfl
  | answer => rfl

/-- A pool that is disposed or full has the connection closed that comes back. -/
theorem release_of_full {pool : Pool} {capacity : Nat}
    (hcapacity : pool.capacity? = some capacity) (connection : Connection)
    (hfull : pool.disposed = true ∨ capacity ≤ pool.idle.length) :
    pool.release connection = (some connection, pool) := by
  rcases pool with ⟨endpoint, ⟨_, kept⟩ | _, disposed⟩
  · cases hcapacity
    have hroom : ¬ (!disposed && decide (kept.length < capacity)) = true := by
      simp only [Bool.and_eq_true, Bool.not_eq_true', decide_eq_true_eq, idle] at hfull ⊢
      rintro ⟨rfl, hlt⟩
      simp only [Bool.false_eq_true, false_or] at hfull
      omega
    simp only [release, hroom, if_false, Bool.false_eq_true]
  · rfl

/-- Any other pool with a capacity keeps it. -/
theorem release_of_room {pool : Pool} {capacity : Nat}
    (hcapacity : pool.capacity? = some capacity) (connection : Connection)
    (hlive : pool.disposed = false) (hroom : pool.idle.length < capacity) :
    (pool.release connection).1 = none ∧
      (pool.release connection).2.idle = connection :: pool.idle := by
  rcases pool with ⟨endpoint, ⟨_, kept⟩ | _, disposed⟩
  · cases hcapacity
    cases hlive
    have hlt : kept.length < capacity := hroom
    simp [release, idle, hlt]
  · cases hcapacity

/-- No event makes a pool keep more than its capacity. -/
theorem length_idle_after {pool : Pool} {capacity : Nat}
    (hcapacity : pool.capacity? = some capacity) (hroom : pool.idle.length ≤ capacity)
    (event : PoolEvent) : (pool.after event).idle.length ≤ capacity := by
  cases event with
  | acquire =>
      rcases pool.after_acquire with hsame | ⟨connection, hidle, -⟩
      · rw [hsame]
        exact hroom
      · rw [hidle, List.length_cons] at hroom
        exact Nat.le_of_succ_le hroom
  | release connection =>
      simp only [after]
      by_cases hfull : pool.disposed = true ∨ capacity ≤ pool.idle.length
      · rw [release_of_full hcapacity connection hfull]
        exact hroom
      · simp only [not_or, Bool.not_eq_true, Nat.not_le] at hfull
        rw [(release_of_room hcapacity connection hfull.1 hfull.2).2, List.length_cons]
        exact hfull.2
  | dispose => simp [after]
  | answer => exact hroom

/-- A pool is disposed by being disposed, and in no other way. -/
theorem disposed_after (pool : Pool) (event : PoolEvent) :
    (pool.after event).disposed = true ↔ pool.disposed = true ∨ event = .dispose := by
  cases event with
  | acquire =>
      rcases pool.after_acquire with hsame | ⟨-, -, -, hdisposed⟩
      · simp [hsame]
      · simp [hdisposed]
  | release connection => simp [after]
  | dispose => simp [after]
  | answer => simp [after]

end Pool

namespace PoolHistory

variable {history : PoolHistory} {pool : Pool}

/-! ## One place for each connection -/

theorem Sound.perm (h : history.Sound pool) :
    history.network.opened.Perm
      (pool.idle ++ history.lent ++ history.network.held ++ history.network.parting ++
        history.network.closed) := by
  rw [← h.idle_eq]
  exact h.ledger.perm

theorem Sound.places_nodup (h : history.Sound pool) :
    (pool.idle ++ history.lent ++ history.network.held ++ history.network.parting ++
      history.network.closed).Nodup :=
  h.perm.nodup_iff.1 h.ledger.opened_nodup

theorem Sound.not_mem_idle (h : history.Sound pool) {connection : Connection}
    (hlent : connection ∈ history.lent) : connection ∉ pool.idle := by
  have hplaces := h.places_nodup
  simp only [List.append_assoc] at hplaces
  intro hidle
  exact (List.nodup_append.1 hplaces).2.2 connection hidle connection
    (List.mem_append_left _ hlent) rfl

/-! ## The order in which connections came back -/

/-- What the pool keeps was given back, and is in the order of being given back, the last one
first. -/
structure Recent (history : PoolHistory) (pool : Pool) : Prop where
  mem : ∀ connection ∈ pool.idle, connection ∈ history.returned
  order : pool.idle.Pairwise fun a b => history.returned.idxOf a < history.returned.idxOf b

namespace Recent

/-- The kept connection that is lent next is the one given back last. -/
theorem find?_returned (h : history.Recent pool) :
    history.returned.find? (fun connection => connection ∈ pool.idle) = pool.idle.head? := by
  cases hidle : pool.idle with
  | nil => simp
  | cons connection rest =>
      have horder := h.order
      rw [hidle, List.pairwise_cons] at horder
      have hmem : connection ∈ history.returned := h.mem connection (by simp [hidle])
      have hlt := List.idxOf_lt_length_iff.2 hmem
      rw [List.head?_cons, List.find?_eq_some_iff_getElem]
      refine ⟨by simp, _, hlt, List.getElem_idxOf hlt, ?_⟩
      intro place hplace
      -- what stands before it was given back later, and is not kept
      have hfirst : history.returned.idxOf history.returned[place] ≤ place := by
        by_contra hlater
        have hnot := List.not_of_lt_findIdx (Nat.lt_of_not_le hlater)
        simp at hnot
      simp only [Bool.not_eq_true', decide_eq_false_iff_not, List.mem_cons, not_or]
      constructor
      · intro hsame
        rw [hsame] at hfirst
        omega
      · intro hrest
        have hlater := horder.1 _ hrest
        omega

theorem start (hidle : pool.idle = []) : (PoolHistory.start pool).Recent pool where
  mem := by simp [hidle]
  order := by simp [hidle]

/-- A connection that comes back is the last one given back, whether it is kept or not. -/
theorem release (h : history.Recent pool) (hsound : history.Sound pool)
    {connection : Connection} (hlent : connection ∈ history.lent) :
    (history.extend (.release connection)).Recent (pool.after (.release connection)) := by
  have hnot := hsound.not_mem_idle hlent
  have hreturned : (history.extend (.release connection)).returned =
      connection :: history.returned := rfl
  -- the others stand one place further back than before
  have hplace : ∀ kept ∈ pool.idle, (connection :: history.returned).idxOf kept =
      history.returned.idxOf kept + 1 := by
    intro kept hkept
    exact List.idxOf_cons_ne _ fun hsame => hnot (hsame ▸ hkept)
  have hmem : ∀ kept ∈ pool.idle, kept ∈ connection :: history.returned :=
    fun kept hkept => List.mem_cons_of_mem _ (h.mem kept hkept)
  have horder : pool.idle.Pairwise fun a b =>
      (connection :: history.returned).idxOf a < (connection :: history.returned).idxOf b := by
    refine h.order.imp_of_mem fun ha hb hlt => ?_
    rw [hplace _ ha, hplace _ hb]
    exact Nat.succ_lt_succ hlt
  rcases pool.release_cases connection with ⟨-, -, hidle⟩ | hrejected
  · constructor
    · intro kept hkept
      rw [Pool.after, hidle] at hkept
      rw [hreturned]
      rcases List.mem_cons.1 hkept with rfl | hold
      · exact List.mem_cons_self
      · exact hmem kept hold
    · rw [Pool.after, hidle, hreturned, List.pairwise_cons]
      refine ⟨fun kept hkept => ?_, horder⟩
      rw [List.idxOf_cons_self, hplace kept hkept]
      exact Nat.succ_pos _
  · rw [Pool.after, hrejected]
    exact ⟨hmem, horder⟩

/-- Every event keeps the order. -/
theorem extend (h : history.Recent pool) (hsound : history.Sound pool) {event : PoolEvent}
    (hpossible : event.isPossible history.lent = true) :
    (history.extend event).Recent (pool.after event) := by
  cases event with
  | acquire =>
      rcases pool.after_acquire with hsame | ⟨connection, hidle, -⟩
      · rw [hsame]
        exact ⟨h.mem, h.order⟩
      · have hmem := h.mem
        have horder := h.order
        rw [hidle] at hmem horder
        exact ⟨fun kept hkept => hmem kept (List.mem_cons_of_mem _ hkept), horder.of_cons⟩
  | release connection =>
      exact h.release hsound (by simpa [PoolEvent.isPossible] using hpossible)
  | dispose => constructor <;> simp [Pool.after]
  | answer => exact ⟨h.mem, h.order⟩

end Recent

/-! ## Every run -/

/-- What holds of a pool with a capacity after some events. -/
structure Safe (history : PoolHistory) (capacity : Nat) (events : List PoolEvent)
    (pool : Pool) : Prop where
  sound : history.Sound pool
  recent : history.Recent pool
  sized : pool.capacity? = some capacity
  room : pool.idle.length ≤ capacity
  disposed : pool.disposed = true ↔ .dispose ∈ events

namespace Safe

variable {capacity : Nat} {events : List PoolEvent} {event : PoolEvent}

theorem start (endpoint : Address) (capacity : Nat) :
    (PoolHistory.start (.bounded endpoint capacity)).Safe capacity [] (.bounded endpoint capacity)
    where
  sound := sound_start rfl
  recent := .start rfl
  sized := rfl
  room := Nat.zero_le capacity
  disposed := by simp [Pool.bounded]

theorem extend (h : history.Safe capacity events pool)
    (hpossible : event.isPossible history.lent = true) :
    (history.extend event).Safe capacity (events ++ [event]) (pool.after event) where
  sound := h.sound.extend hpossible
  recent := h.recent.extend h.sound hpossible
  sized := by rw [Pool.after_capacity?, h.sized]
  room := Pool.length_idle_after h.sized h.room event
  disposed := by
    rw [Pool.disposed_after, h.disposed, List.mem_append, List.mem_singleton]
    simp only [eq_comm]

/-- An event that is not possible gives a connection back, and does nothing. -/
theorem skip (h : history.Safe capacity events pool)
    (himpossible : event.isPossible history.lent = false) :
    history.Safe capacity (events ++ [event]) pool where
  sound := h.sound
  recent := h.recent
  sized := h.sized
  room := h.room
  disposed := by
    have hother : PoolEvent.dispose ≠ event := by
      rintro rfl
      cases himpossible
    rw [h.disposed, List.mem_append, List.mem_singleton, or_iff_left hother]

theorem run (endpoint : Address) (capacity : Nat) (events : List PoolEvent) :
    ∃ pool, ((PoolHistory.start (.bounded endpoint capacity)).run events).Safe capacity events
      pool := by
  refine run_induction (fun events history => ∃ pool, history.Safe capacity events pool)
    ⟨_, start endpoint capacity⟩ ?_ ?_ events
  · rintro events event ⟨pool, h⟩ hpossible
    exact ⟨_, h.extend hpossible⟩
  · rintro events event ⟨pool, h⟩ himpossible
    exact ⟨pool, h.skip himpossible⟩

end Safe

/-- In every run of a pool with a capacity: it keeps no more than that many connections.  It
is disposed once a call disposed it, and from then on keeps nothing and hands out nothing,
whatever was under way.  Each connection that was opened is kept, or lent, or held by a call
that asked for it and is to see it closed, or is closed or being closed, and in one of these
places only.  No answer of the transport, a refusal included, changes the pool.  A request
hands out at once the kept connection that was given back last, if there is one.  A
connection that comes back is closed, and no other, exactly if the pool is disposed or holds
as many as it may; otherwise it is kept. -/
theorem bounded_pool_safe (endpoint : Address) (capacity : Nat) (events : List PoolEvent) :
    let now := (start (.bounded endpoint capacity)).run events
    ∃ pool, now.network.pools = [pool] ∧ pool.idle.length ≤ capacity ∧
      (pool.disposed = true ↔ .dispose ∈ events) ∧
      (pool.disposed = true → pool.idle = [] ∧ ∀ event, (now.perform event).2.lent = []) ∧
      now.network.opened.length = pool.idle.length + now.lent.length +
        now.network.held.length + (now.network.parting.length + now.network.closed.length) ∧
      (pool.idle ++ now.lent ++ now.network.held ++ now.network.parting ++
        now.network.closed).Nodup ∧
      (∀ completion, (now.perform (.answer completion)).1.pools = [pool]) ∧
      (now.perform .acquire).2.lent =
        (now.returned.find? fun connection => connection ∈ pool.idle).toList ∧
      ∀ connection ∈ now.lent,
        if pool.disposed = true ∨ pool.idle.length = capacity then
          (now.perform (.release connection)).1.pools = [pool] ∧
            (now.perform (.release connection)).2.requests =
              [.closing now.network.nextCall connection]
        else ∃ after, (now.perform (.release connection)).1.pools = [after] ∧
          after.idle = connection :: pool.idle ∧
            (now.perform (.release connection)).2.requests = [] := by
  intro now
  obtain ⟨pool, hsafe⟩ := Safe.run endpoint capacity events
  have hsound : now.Sound pool := hsafe.sound
  refine ⟨pool, hsound.alone, hsafe.room, hsafe.disposed, ?_, ?_, hsound.places_nodup, ?_, ?_, ?_⟩
  · exact fun hdisposed => ⟨hsound.tidy.quiet hdisposed, hsound.lent_perform hdisposed⟩
  · have hlength := hsound.perm.length_eq
    simp only [List.length_append] at hlength
    omega
  · exact fun completion => hsound.pools_perform (.answer completion)
  · rw [hsound.lent_acquire, ← hsafe.recent.find?_returned]
  · intro connection _
    have hpools := hsound.pools_perform (.release connection)
    have hrequests := hsound.requests_release connection
    have hroom := hsafe.room
    split
    next hfull =>
      have hrelease := Pool.release_of_full hsafe.sized connection
        (hfull.imp_right fun heq => Nat.le_of_eq heq.symm)
      rw [Pool.after, hrelease] at hpools
      rw [hrelease] at hrequests
      exact ⟨hpools, hrequests⟩
    next hkept =>
      simp only [not_or, Bool.not_eq_true] at hkept
      obtain ⟨hnone, hidle⟩ :=
        Pool.release_of_room hsafe.sized connection hkept.1 (by omega)
      rw [hnone] at hrequests
      exact ⟨_, hpools, hidle, hrequests⟩

/-- A pool that keeps one connection is disposed while another one opens: the one that comes
too late is held until it is closed, and the one that is out is closed when it comes back. -/
theorem bounded_pool_safe_of_late_opening : ∃ site events now,
    now = (start (.bounded site 1)).run events ∧ now.lent = [⟨0, site⟩] ∧
      now.network.held = [⟨2, site⟩] ∧ now.network.parting = [⟨1, site⟩] ∧
      now.network.opened.length = 3 ∧
      (∀ event, (now.perform event).2.lent = []) ∧
      (now.perform (.release ⟨0, site⟩)).2.requests = [.closing 7 ⟨0, site⟩] := by
  let site : Address := .ofQuad 10 0 0 1
  -- two connections are lent and given back, one of them is lent again, and a third opens
  let events : List PoolEvent := [.acquire, .acquire, .answer (.opened 0), .answer (.opened 1),
    .release ⟨0, site⟩, .release ⟨1, site⟩, .acquire, .acquire, .dispose, .answer (.opened 5)]
  obtain ⟨now, hnow⟩ : ∃ now, now = (start (.bounded site 1)).run events := ⟨_, rfl⟩
  obtain ⟨pool, -, -, hdisposed, hquiet, -, -, -, -, hrelease⟩ :=
    bounded_pool_safe site 1 events
  rw [← hnow] at hquiet hrelease
  have hgone : pool.disposed = true := hdisposed.2 (by decide)
  have hlent : now.lent = [⟨0, site⟩] := by
    rw [hnow]
    decide +kernel
  have hnext : now.network.nextCall = 7 := by
    rw [hnow]
    decide +kernel
  have hback := hrelease ⟨0, site⟩ (hlent ▸ List.mem_cons_self)
  rw [if_pos (.inl hgone), hnext] at hback
  refine ⟨site, events, now, hnow, hlent, ?_, ?_, ?_, (hquiet hgone).2, hback.2⟩
  all_goals
    rw [hnow]
    decide +kernel

end PoolHistory
end RingRouting
