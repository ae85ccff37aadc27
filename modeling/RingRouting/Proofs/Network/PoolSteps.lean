import RingRouting.Network.Pool

/-!
# What the steps of a pool do

Each step of a pool moves connections between the ones it keeps and its caller.  The
laws here say where every connection goes, and that a step leaves the endpoint of
the pool alone and disposes it only when it is asked to.

Main results:

- Theorem `Pool.acquire_cases`: a disposed pool refuses, a pool that keeps something
  lends the connection that came back last, any other pool asks for a new one.
- Theorem `Pool.count_release`: a connection that comes back is kept or has to be
  closed, never both and never neither.
- Theorems `Pool.Tidy.acquire`, `Pool.Tidy.release`, `Pool.Tidy.dispose`: what a
  pool keeps leads to its endpoint, and a disposed pool keeps nothing.
-/

namespace RingRouting
namespace Pool

/-! ## Lending -/

/-- The three answers to a caller who wants a connection. -/
theorem acquire_cases (pool : Pool) :
    (pool.disposed = true ∧ pool.acquire = (.refused, pool)) ∨
      (pool.disposed = false ∧ pool.idle = [] ∧ pool.acquire = (.opening, pool)) ∨
      ∃ connection after, pool.disposed = false ∧
        pool.acquire = (.reused connection, after) ∧ pool.idle = connection :: after.idle ∧
        after.endpoint = pool.endpoint ∧ after.disposed = false := by
  rcases pool with ⟨endpoint, retention, disposed⟩
  cases disposed with
  | true => exact .inl ⟨rfl, rfl⟩
  | false =>
      right
      cases retention with
      | noReuse => exact .inl ⟨rfl, rfl, rfl⟩
      | bounded capacity idle =>
          cases idle with
          | nil => exact .inl ⟨rfl, rfl, rfl⟩
          | cons connection idle =>
              exact .inr ⟨connection, ⟨endpoint, .bounded capacity idle, false⟩,
                rfl, rfl, rfl, rfl, rfl⟩

/-! ## Taking back -/

@[simp]
theorem release_endpoint (pool : Pool) (connection : Connection) :
    (pool.release connection).2.endpoint = pool.endpoint := by
  unfold release
  split
  · split <;> rfl
  · rfl

@[simp]
theorem release_disposed (pool : Pool) (connection : Connection) :
    (pool.release connection).2.disposed = pool.disposed := by
  unfold release
  split
  · split <;> rfl
  · rfl

/-- A connection that comes back is either kept, as the one to be lent next, or has to
be closed, and then the pool stays as it is. -/
theorem release_cases (pool : Pool) (connection : Connection) :
    (pool.disposed = false ∧ (pool.release connection).1 = none ∧
        (pool.release connection).2.idle = connection :: pool.idle) ∨
      pool.release connection = (some connection, pool) := by
  rcases pool with ⟨endpoint, retention, disposed⟩
  cases retention with
  | noReuse => exact .inr rfl
  | bounded capacity idle =>
      by_cases hroom : (!disposed && decide (idle.length < capacity)) = true
      · left
        have hlive : disposed = false := by
          cases disposed with
          | false => rfl
          | true => simp at hroom
        simp only [release, hroom, if_true]
        exact ⟨hlive, trivial, rfl⟩
      · right
        simp [release, hroom]

/-- Nothing is lost and nothing is doubled when a connection comes back. -/
theorem count_release (pool : Pool) (connection c : Connection) :
    (pool.release connection).2.idle.count c +
        (pool.release connection).1.toList.count c =
      pool.idle.count c + [connection].count c := by
  rcases pool.release_cases connection with ⟨-, hnone, hidle⟩ | hclosed
  · rw [hnone, hidle, List.count_cons]
    simp [List.count_cons]
  · rw [hclosed]
    simp

/-! ## Disposing -/

@[simp]
theorem dispose_endpoint (pool : Pool) : pool.dispose.2.endpoint = pool.endpoint := by
  unfold dispose
  split <;> rfl

@[simp]
theorem dispose_disposed (pool : Pool) : pool.dispose.2.disposed = true := by
  unfold dispose
  split <;> rfl

@[simp]
theorem dispose_idle (pool : Pool) : pool.dispose.2.idle = [] := by
  rcases pool with ⟨endpoint, retention, disposed⟩
  cases retention <;> rfl

/-- Disposing has exactly the kept connections closed, the first to have come first. -/
theorem dispose_drained (pool : Pool) : pool.dispose.1 = pool.idle.reverse := by
  rcases pool with ⟨endpoint, retention, disposed⟩
  cases retention <;> rfl

/-! ## Tidy pools -/

/-- What a pool keeps leads to its endpoint, and once disposed it keeps nothing. -/
structure Tidy (pool : Pool) : Prop where
  quiet : pool.disposed = true → pool.idle = []
  homed : ∀ connection ∈ pool.idle, connection.endpoint = pool.endpoint

/-- A tidy pool that lends what it kept stays tidy. -/
theorem Tidy.acquire {pool after : Pool} {connection : Connection} (htidy : pool.Tidy)
    (hreused : pool.acquire = (.reused connection, after)) :
    after.Tidy ∧ connection.endpoint = pool.endpoint := by
  rcases pool.acquire_cases with ⟨-, h⟩ | ⟨-, -, h⟩ | ⟨c, next, -, h, hidle, hsite, hlive⟩
  · rw [h] at hreused
    cases hreused
  · rw [h] at hreused
    cases hreused
  · rw [h] at hreused
    cases hreused
    refine ⟨⟨?_, ?_⟩, ?_⟩
    · intro hdisposed
      rw [hlive] at hdisposed
      cases hdisposed
    · intro kept hkept
      rw [hsite]
      exact htidy.homed kept (by rw [hidle]; exact List.mem_cons_of_mem _ hkept)
    · exact htidy.homed connection (by rw [hidle]; exact List.mem_cons_self)

/-- A tidy pool that takes back a connection to its endpoint stays tidy. -/
theorem Tidy.release {pool : Pool} {connection : Connection} (htidy : pool.Tidy)
    (hsite : connection.endpoint = pool.endpoint) : (pool.release connection).2.Tidy := by
  rcases pool.release_cases connection with ⟨hlive, -, hidle⟩ | hclosed
  · refine ⟨?_, ?_⟩
    · intro hdisposed
      rw [release_disposed, hlive] at hdisposed
      cases hdisposed
    · intro kept hkept
      rw [hidle] at hkept
      rw [release_endpoint]
      rcases List.mem_cons.1 hkept with rfl | hkept
      · exact hsite
      · exact htidy.homed kept hkept
  · rw [hclosed]
    exact htidy

/-- A disposed pool is tidy. -/
theorem Tidy.dispose (pool : Pool) : pool.dispose.2.Tidy :=
  ⟨fun _ => dispose_idle pool, by simp⟩

end Pool
end RingRouting
