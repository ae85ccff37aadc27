import Mathlib.Data.List.Nodup
import RingRouting.Network.EndpointPools
import RingRouting.Proofs.Network.CallSteps

/-!
# The map of pools and the pools behind it

The standing of a pool is the endpoint it leads to and whether it is disposed.
Lending, taking back and the answers of the transport leave all standings alone;
only opening a pool and disposing pools change them.  The invariants of the map from
endpoints to pools therefore depend on the map and on the standings alone.

Main results:

- Theorems `Network.Acquired.standings`, `Network.Completed.standings`,
  `Network.standings_releaseAs`: the steps that keep every standing.
- Theorem `Network.standings_disposePools`: disposing changes the pools named.
- Theorems `EndpointPools.Sound.openMissing` and `EndpointPools.Sound.takenOut`:
  every entry of the map leads to a pool of its own that is not disposed.
- Theorems `EndpointPools.Placed.openMissing` and `EndpointPools.Placed.takenOut`:
  that pool leads to the entry's endpoint, and all other pools are disposed.
-/

namespace RingRouting

/-- Where a pool leads, and whether it is disposed. -/
def Pool.standing (pool : Pool) : Address × Bool :=
  (pool.endpoint, pool.disposed)

namespace Network

variable {Purpose : Type}

/-- The standings of all pools there ever were, by number. -/
def standings (network : Network Purpose) : List (Address × Bool) :=
  network.pools.map Pool.standing

theorem standings_getElem? (network : Network Purpose) (id : PoolId) :
    network.standings[id]? = (network.pools[id]?).map Pool.standing :=
  List.getElem?_map

/-- A pool with the number, the endpoint and the mark that a standing tells. -/
theorem pool_of_standing {network : Network Purpose} {id : PoolId} {site : Address}
    {disposed : Bool} (h : network.standings[id]? = some (site, disposed)) :
    ∃ pool, network.pools[id]? = some pool ∧ pool.endpoint = site ∧
      pool.disposed = disposed := by
  rw [standings_getElem?, Option.map_eq_some_iff] at h
  obtain ⟨pool, hpool, hstanding⟩ := h
  cases hstanding
  exact ⟨pool, hpool, rfl, rfl⟩

theorem standing_of_pool {network : Network Purpose} {id : PoolId} {pool : Pool}
    (h : network.pools[id]? = some pool) :
    network.standings[id]? = some (pool.endpoint, pool.disposed) := by
  rw [standings_getElem?, h]
  rfl

@[simp]
theorem length_standings (network : Network Purpose) :
    network.standings.length = network.pools.length :=
  List.length_map _

/-- Where the standings are the same, no pool has come or gone. -/
theorem length_pools_of_standings {network after : Network Purpose}
    (h : after.standings = network.standings) : after.pools.length = network.pools.length := by
  rw [← length_standings, h, length_standings]

/-- A new pool has the last standing. -/
theorem standings_addPool (network : Network Purpose) (pool : Pool) :
    (network.addPool pool).2.standings = network.standings ++ [pool.standing] := by
  simp [standings, addPool]

/-- The pools there were before keep their standings when one is added. -/
theorem standings_addPool_of_lt {network : Network Purpose} {id : PoolId}
    (hlt : id < network.pools.length) (pool : Pool) :
    (network.addPool pool).2.standings[id]? = network.standings[id]? := by
  rw [standings_addPool, List.getElem?_append_left (by simpa using hlt)]

theorem lt_length_of_standing {network : Network Purpose} {id : PoolId}
    {standing : Address × Bool} (h : network.standings[id]? = some standing) :
    id < network.pools.length := by
  simpa using (List.getElem?_eq_some_iff.1 h).1

/-- The standing of the pool that was added. -/
theorem standings_addPool_self (network : Network Purpose) (pool : Pool) :
    (network.addPool pool).2.standings[network.pools.length]? = some pool.standing := by
  rw [standings_addPool, ← length_standings, List.getElem?_concat_length]

/-! ## Steps that keep the standings -/

/-- A pool may change what it keeps. -/
theorem standings_setPool {network : Network Purpose} {id : PoolId} {pool after : Pool}
    (hpool : network.pools[id]? = some pool) (hsame : after.standing = pool.standing) :
    (network.setPool id after).standings = network.standings := by
  apply List.ext_getElem?
  intro place
  rw [standings_getElem?, standings_getElem?, setPool, List.getElem?_set]
  by_cases hplace : id = place
  · subst hplace
    have hlt : id < network.pools.length := (List.getElem?_eq_some_iff.1 hpool).1
    rw [if_pos rfl, if_pos hlt, hpool]
    simp [hsame]
  · rw [if_neg hplace]

theorem Acquired.standings {network : Network Purpose} {call : CallId} {purpose : Purpose}
    {id : PoolId} {result : Network Purpose × Progress Purpose}
    (h : network.Acquired call purpose id result) : result.1.standings = network.standings := by
  cases h with
  | missing => rfl
  | refused => rfl
  | opening => rfl
  | @reused pool after connection hpool hreused =>
      apply standings_setPool hpool
      rcases pool.acquire_cases with ⟨-, h⟩ | ⟨-, -, h⟩ | ⟨c, next, hlive, h, -, hsite, hnext⟩
      · rw [h] at hreused
        cases hreused
      · rw [h] at hreused
        cases hreused
      · rw [h] at hreused
        cases hreused
        simp [Pool.standing, hsite, hlive, hnext]

theorem Completed.standings {network : Network Purpose}
    {result : Network Purpose × Progress Purpose} (h : network.Completed result) :
    result.1.standings = network.standings := by
  cases h <;> rfl

theorem standings_releaseAs (network : Network Purpose) (call : CallId) (purpose : Purpose)
    (id : PoolId) (connection : Connection) :
    (network.releaseAs call purpose id connection).1.standings = network.standings := by
  cases hpool : network.pools[id]? with
  | none => simp only [releaseAs, hpool]
  | some pool =>
      have hset := standings_setPool hpool
        (show (pool.release connection).2.standing = pool.standing by simp [Pool.standing])
      rw [releaseAs_eq hpool, standings, closeAll_pools]
      exact hset

/-! ## Disposing -/

theorem dispose_dispose (pool : Pool) : pool.dispose.2.dispose.2 = pool.dispose.2 := by
  rcases pool with ⟨endpoint, retention, disposed⟩
  cases retention <;> rfl

/-- Disposing pools touches exactly those that are named. -/
theorem disposePools_pools (ids : List PoolId) (network : Network Purpose) (id : PoolId) :
    (network.disposePools ids).2.pools[id]? =
      if id ∈ ids then (network.pools[id]?).map fun pool => pool.dispose.2
      else network.pools[id]? := by
  induction ids generalizing network with
  | nil => rfl
  | cons first rest ih =>
      unfold disposePools
      split
      · rename_i hnone
        rw [ih]
        by_cases hid : id = first
        · subst hid
          simp [hnone]
        · simp [hid]
      · rename_i pool hpool
        simp only [ih]
        obtain ⟨hlt, hget⟩ := List.getElem?_eq_some_iff.1 hpool
        by_cases hid : id = first
        · subst hid
          simp [setPool, hlt, hget, dispose_dispose]
        · have hne : ¬ first = id := fun h => hid h.symm
          simp [setPool, hid, hne]

theorem standings_disposePools (ids : List PoolId) (network : Network Purpose) (id : PoolId) :
    (network.disposePools ids).2.standings[id]? =
      if id ∈ ids then (network.standings[id]?).map fun standing => (standing.1, true)
      else network.standings[id]? := by
  rw [standings_getElem?, standings_getElem?, disposePools_pools]
  by_cases hid : id ∈ ids
  · rw [if_pos hid, if_pos hid, Option.map_map, Option.map_map]
    congr 1
    funext pool
    simp [Pool.standing]
  · rw [if_neg hid, if_neg hid]

theorem Disposed.standings {network : Network Purpose} {call : CallId} {purpose : Purpose}
    {ids : List PoolId} {result : Network Purpose × Progress Purpose}
    (h : network.Disposed call purpose ids result) (id : PoolId) :
    result.1.standings[id]? =
      if id ∈ ids then (network.standings[id]?).map fun standing => (standing.1, true)
      else network.standings[id]? := by
  cases h <;> exact standings_disposePools ids network id

end Network

theorem ClusterView.isMember_iff (view : ClusterView) (endpoint : Address) :
    EndpointPools.isMember view endpoint = true ↔ endpoint ∈ view.addresses := by
  simp only [EndpointPools.isMember, get?, Option.isSome_iff_exists, view.knownPeers_iff, addresses,
    List.mem_map]

namespace EndpointPools

variable {Purpose : Type}

/-! ## The map -/

/-- The numbers of the pools in the map. -/
def ids (pools : EndpointPools Purpose) : List PoolId :=
  pools.entries.map Prod.snd

theorem mem_entries_of_find? {pools : EndpointPools Purpose} {endpoint : Address}
    {id : PoolId} (h : pools.find? endpoint = some id) : (endpoint, id) ∈ pools.entries := by
  unfold find? at h
  rw [List.lookup_eq_some_iff] at h
  obtain ⟨before, after, hsplit, -⟩ := h
  rw [hsplit]
  simp

theorem find?_isSome_iff (pools : EndpointPools Purpose) (endpoint : Address) :
    (pools.find? endpoint).isSome ↔ endpoint ∈ pools.endpoints := by
  unfold find? endpoints
  rw [List.lookup_isSome_iff]
  constructor
  · rintro ⟨entry, hentry, hsame⟩
    exact List.mem_map.2 ⟨entry, hentry, (eq_of_beq hsame).symm⟩
  · intro hmem
    obtain ⟨entry, hentry, hsame⟩ := List.mem_map.1 hmem
    exact ⟨entry, hentry, by simp [hsame]⟩

theorem exists_find? {pools : EndpointPools Purpose} {endpoint : Address}
    (h : endpoint ∈ pools.endpoints) : ∃ id, pools.find? endpoint = some id :=
  Option.isSome_iff_exists.1 ((find?_isSome_iff pools endpoint).2 h)

/-! ## Opening pools -/

/-- A pool that can be made gets the next number and the last place of the map. -/
theorem openPool_eq_ok {pools after : EndpointPools Purpose} {endpoint : Address}
    (h : pools.openPool endpoint = .ok after) :
    ∃ pool, pools.factory ⟨endpoint, pools.capacity⟩ = .ok pool ∧
      after = { pools with
        entries := pools.entries ++ [(endpoint, pools.network.pools.length)]
        network := (pools.network.addPool pool).2 } := by
  unfold openPool at h
  split at h
  · cases h
  · rename_i pool hpool
    cases h
    exact ⟨pool, hpool, rfl⟩

/-- What holds of a map and is kept when an endpoint without a pool gets one holds
after pools were made for any endpoints, also where one could not be made. -/
theorem openMissingFor_induction (Holds : EndpointPools Purpose → Prop)
    (hopen : ∀ pools endpoint after, Holds pools → endpoint ∉ pools.endpoints →
      pools.openPool endpoint = .ok after → Holds after)
    (endpoints : List Address) (pools : EndpointPools Purpose) (h : Holds pools) :
    Holds (pools.openMissingFor endpoints).2 := by
  induction endpoints generalizing pools with
  | nil => exact h
  | cons endpoint rest ih =>
      unfold openMissingFor
      split
      · exact ih pools h
      · rename_i hnone
        split
        · exact h
        · rename_i after hafter
          have hnew : endpoint ∉ pools.endpoints := by
            rw [← find?_isSome_iff]
            exact hnone
          exact ih after (hopen pools endpoint after h hnew hafter)

/-- An endpoint that has a pool keeps that pool while others get theirs. -/
theorem find?_openMissingFor {endpoint : Address} {id : PoolId} (endpoints : List Address)
    (pools : EndpointPools Purpose) (h : pools.find? endpoint = some id) :
    (pools.openMissingFor endpoints).2.find? endpoint = some id := by
  refine openMissingFor_induction (fun pools => pools.find? endpoint = some id) ?_
    endpoints pools h
  intro pools other after hfind _ hopen
  obtain ⟨pool, -, rfl⟩ := openPool_eq_ok hopen
  unfold find? at hfind ⊢
  rw [List.lookup_append, hfind]
  rfl

theorem mem_endpoints_openMissingFor {endpoint : Address} (endpoints : List Address)
    (pools : EndpointPools Purpose) (h : endpoint ∈ pools.endpoints) :
    endpoint ∈ (pools.openMissingFor endpoints).2.endpoints := by
  obtain ⟨id, hid⟩ := exists_find? h
  rw [← find?_isSome_iff, find?_openMissingFor endpoints pools hid]
  rfl

/-- If all pools could be made, all the endpoints have one. -/
theorem mem_endpoints_of_openMissingFor_ok {endpoints : List Address}
    {pools : EndpointPools Purpose} (hok : (pools.openMissingFor endpoints).1 = .ok ())
    {endpoint : Address} (hmem : endpoint ∈ endpoints) :
    endpoint ∈ (pools.openMissingFor endpoints).2.endpoints := by
  induction endpoints generalizing pools with
  | nil => cases hmem
  | cons first rest ih =>
      unfold openMissingFor at hok ⊢
      by_cases hsome : (pools.find? first).isSome = true
      · simp only [hsome, if_true] at hok ⊢
        rcases List.mem_cons.1 hmem with rfl | hrest
        · exact mem_endpoints_openMissingFor rest pools ((find?_isSome_iff _ _).1 hsome)
        · exact ih hok hrest
      · simp only [hsome] at hok ⊢
        cases hopen : pools.openPool first with
        | error e => simp [hopen] at hok
        | ok after =>
            simp only [hopen] at hok ⊢
            rcases List.mem_cons.1 hmem with rfl | hrest
            · obtain ⟨pool, -, rfl⟩ := openPool_eq_ok hopen
              apply mem_endpoints_openMissingFor
              simp [EndpointPools.endpoints]
            · exact ih hok hrest

/-! ## Taking pools out -/

/-- The map with those entries alone whose endpoints are kept. -/
def keeping (pools : EndpointPools Purpose) (keep : Address → Bool)
    (network : Network Purpose) : EndpointPools Purpose :=
  { pools with entries := pools.entries.filter fun entry => keep entry.1, network := network }

/-- The numbers of the pools whose endpoints are not kept. -/
def dropped (pools : EndpointPools Purpose) (keep : Address → Bool) : List PoolId :=
  (pools.entries.filter fun entry => !keep entry.1).map Prod.snd

theorem mem_endpoints_keeping (pools : EndpointPools Purpose) (keep : Address → Bool)
    (network : Network Purpose) (endpoint : Address) :
    endpoint ∈ (pools.keeping keep network).endpoints ↔
      endpoint ∈ pools.endpoints ∧ keep endpoint = true := by
  simp only [endpoints, keeping, List.mem_map, List.mem_filter]
  constructor
  · rintro ⟨entry, ⟨hmem, hkept⟩, rfl⟩
    exact ⟨⟨entry, hmem, rfl⟩, hkept⟩
  · rintro ⟨⟨entry, hmem, rfl⟩, hkept⟩
    exact ⟨entry, ⟨hmem, hkept⟩, rfl⟩

/-- Disposing the pools that are not kept ends at once or waits. -/
theorem keeping_cases (pools : EndpointPools Purpose) (call : CallId) (purpose : Purpose)
    (keep : Address → Bool) {result : EndpointPools Purpose × Progress Purpose}
    (hresult : result =
      (pools.keeping keep (pools.network.disposeAs call purpose (pools.dropped keep)).1,
        (pools.network.disposeAs call purpose (pools.dropped keep)).2)) :
    (∃ network, pools.network.Disposed call purpose (pools.dropped keep)
          (network, .finish call purpose .done) ∧
        result = (pools.keeping keep network, .finish call purpose .done)) ∨
      ∃ network requests, pools.network.Disposed call purpose (pools.dropped keep)
          (network, .ask requests) ∧
        result = (pools.keeping keep network, .ask requests) := by
  have hdisposed := pools.network.disposed call purpose (pools.dropped keep)
  rw [hresult]
  generalize pools.network.disposeAs call purpose (pools.dropped keep) = after at hdisposed
  cases hdisposed with
  | quiet hquiet => exact .inl ⟨_, .quiet hquiet, rfl⟩
  | closing hsome => exact .inr ⟨_, _, .closing hsome, rfl⟩

theorem retireAbsentAs_eq (pools : EndpointPools Purpose) (call : CallId) (purpose : Purpose)
    (view : ClusterView) :
    pools.retireAbsentAs call purpose view =
      (pools.keeping (isMember view)
          (pools.network.disposeAs call purpose (pools.dropped (isMember view))).1,
        (pools.network.disposeAs call purpose (pools.dropped (isMember view))).2) :=
  rfl

theorem disposeAllAs_eq (pools : EndpointPools Purpose) (call : CallId) (purpose : Purpose) :
    pools.disposeAllAs call purpose =
      (pools.keeping (fun _ => false)
          (pools.network.disposeAs call purpose (pools.dropped fun _ => false)).1,
        (pools.network.disposeAs call purpose (pools.dropped fun _ => false)).2) := by
  simp [disposeAllAs, keeping, dropped]

/-- Every entry whose endpoint is not kept was taken out of the map, and its pool was
disposed. -/
structure TakenOut (pools after : EndpointPools Purpose) (keep : Address → Bool) : Prop where
  entries : after.entries = pools.entries.filter fun entry => keep entry.1
  standings : ∀ id, after.network.standings[id]? =
    if id ∈ pools.dropped keep then
      (pools.network.standings[id]?).map fun standing => (standing.1, true)
    else pools.network.standings[id]?

theorem takenOut_keeping {pools : EndpointPools Purpose} {keep : Address → Bool}
    {call : CallId} {purpose : Purpose} {result : Network Purpose × Progress Purpose}
    (h : pools.network.Disposed call purpose (pools.dropped keep) result) :
    TakenOut pools (pools.keeping keep result.1) keep where
  entries := rfl
  standings := h.standings

/-! ## Sound maps -/

/-- The map has each endpoint once, and leads each to a pool of its own that is not
disposed. -/
structure Sound (pools : EndpointPools Purpose) : Prop where
  endpoints_nodup : pools.endpoints.Nodup
  ids_nodup : pools.ids.Nodup
  live : ∀ id ∈ pools.ids, ∃ site, pools.network.standings[id]? = some (site, false)

namespace Sound

variable {pools after : EndpointPools Purpose}

/-- Only the entries and the standings matter. -/
theorem congr (h : pools.Sound) (hentries : after.entries = pools.entries)
    (hstandings : after.network.standings = pools.network.standings) : after.Sound where
  endpoints_nodup := by
    simpa only [endpoints, hentries] using h.endpoints_nodup
  ids_nodup := by
    simpa only [ids, hentries] using h.ids_nodup
  live := by
    simpa only [ids, hentries, hstandings] using h.live

/-- A map without entries is sound. -/
theorem of_entries_nil (h : pools.entries = []) : pools.Sound where
  endpoints_nodup := by simp [endpoints, h]
  ids_nodup := by simp [ids, h]
  live := by simp [ids, h]

/-- The pool of an entry, as it can be looked up. -/
theorem exists_pool (h : pools.Sound) {endpoint : Address} (hmem : endpoint ∈ pools.endpoints) :
    ∃ id pool, pools.find? endpoint = some id ∧ pools.pool? id = some pool ∧
      pool.disposed = false := by
  obtain ⟨id, hfind⟩ := exists_find? hmem
  have hid : id ∈ pools.ids := List.mem_map.2 ⟨_, mem_entries_of_find? hfind, rfl⟩
  obtain ⟨site, hstanding⟩ := h.live id hid
  obtain ⟨pool, hpool, -, hlive⟩ := Network.pool_of_standing hstanding
  exact ⟨id, pool, hfind, hpool, hlive⟩

/-- The number that a new pool gets is in no entry. -/
theorem length_not_mem_ids (h : pools.Sound) : pools.network.pools.length ∉ pools.ids := by
  intro hmem
  obtain ⟨site, hstanding⟩ := h.live _ hmem
  obtain ⟨pool, hpool, -, -⟩ := Network.pool_of_standing hstanding
  simp at hpool

theorem openPool (h : pools.Sound)
    (hfresh : ∀ args pool, pools.factory args = .ok pool → pool.disposed = false)
    {endpoint : Address} (hnew : endpoint ∉ pools.endpoints)
    (hopen : pools.openPool endpoint = .ok after) : after.Sound := by
  obtain ⟨pool, hpool, rfl⟩ := openPool_eq_ok hopen
  refine ⟨?_, ?_, ?_⟩
  · rw [endpoints, List.map_append]
    exact h.endpoints_nodup.append (by simp) (List.disjoint_singleton.2 hnew)
  · rw [ids, List.map_append]
    exact h.ids_nodup.append (by simp) (List.disjoint_singleton.2 h.length_not_mem_ids)
  · intro id hid
    rw [ids, List.map_append, List.mem_append] at hid
    rcases hid with hold | hnew
    · obtain ⟨site, hstanding⟩ := h.live id hold
      refine ⟨site, ?_⟩
      rw [Network.standings_addPool_of_lt (Network.lt_length_of_standing hstanding)]
      exact hstanding
    · rw [List.map_singleton, List.mem_singleton] at hnew
      refine ⟨pool.endpoint, ?_⟩
      rw [hnew, Network.standings_addPool_self, Pool.standing, hfresh _ _ hpool]

theorem openMissingFor (h : pools.Sound)
    (hfresh : ∀ args pool, pools.factory args = .ok pool → pool.disposed = false)
    (list : List Address) : (pools.openMissingFor list).2.Sound := by
  have hboth := openMissingFor_induction
    (fun current => current.Sound ∧ current.factory = pools.factory) ?_ list pools ⟨h, rfl⟩
  · exact hboth.1
  · intro current endpoint next hcurrent hnew hopen
    have hsound := hcurrent.1.openPool (hcurrent.2 ▸ hfresh) hnew hopen
    obtain ⟨pool, -, rfl⟩ := openPool_eq_ok hopen
    exact ⟨hsound, hcurrent.2⟩

/-- Taking entries out leaves the pools of the others as they were. -/
theorem takenOut (h : pools.Sound) {keep : Address → Bool} (hout : TakenOut pools after keep) :
    after.Sound := by
  refine ⟨?_, ?_, ?_⟩
  · rw [endpoints, hout.entries]
    exact h.endpoints_nodup.sublist (List.filter_sublist.map _)
  · rw [ids, hout.entries]
    exact h.ids_nodup.sublist (List.filter_sublist.map _)
  · intro id hid
    rw [ids, hout.entries] at hid
    obtain ⟨entry, hentry, rfl⟩ := List.mem_map.1 hid
    obtain ⟨hmem, hkept⟩ := List.mem_filter.1 hentry
    have hnot : entry.2 ∉ pools.dropped keep := by
      intro hstale
      obtain ⟨other, hother, hsame⟩ := List.mem_map.1 hstale
      obtain ⟨hmemOther, hdropped⟩ := List.mem_filter.1 hother
      -- the numbers in the map differ, so the two entries are one
      have hone : other = entry :=
        List.inj_on_of_nodup_map h.ids_nodup hmemOther hmem hsame
      rw [hone, hkept] at hdropped
      cases hdropped
    rw [hout.standings, if_neg hnot]
    exact h.live entry.2 (List.mem_map.2 ⟨entry, hmem, rfl⟩)

end Sound

/-! ## Pools in their places -/

/-- Every entry leads to a pool of its endpoint, and a pool outside the map is
disposed. -/
structure Placed (pools : EndpointPools Purpose) : Prop where
  sited : ∀ entry ∈ pools.entries, ∃ disposed,
    pools.network.standings[entry.2]? = some (entry.1, disposed)
  retired : ∀ id site, pools.network.standings[id]? = some (site, false) → id ∈ pools.ids

namespace Placed

variable {pools after : EndpointPools Purpose}

/-- Only the entries and the standings matter. -/
theorem congr (h : pools.Placed) (hentries : after.entries = pools.entries)
    (hstandings : after.network.standings = pools.network.standings) : after.Placed where
  sited := by
    simpa only [hentries, hstandings] using h.sited
  retired := by
    simpa only [ids, hentries, hstandings] using h.retired

/-- The endpoint to which the pool of an entry leads. -/
theorem exists_standing (h : pools.Placed) {endpoint : Address} {id : PoolId}
    (hfind : pools.find? endpoint = some id) :
    ∃ disposed, pools.network.standings[id]? = some (endpoint, disposed) :=
  h.sited _ (mem_entries_of_find? hfind)

theorem openPool (h : pools.Placed)
    (hsite : ∀ args pool, pools.factory args = .ok pool → pool.endpoint = args.endpoint)
    {endpoint : Address} (hopen : pools.openPool endpoint = .ok after) : after.Placed := by
  obtain ⟨pool, hpool, rfl⟩ := openPool_eq_ok hopen
  refine ⟨?_, ?_⟩
  · intro entry hentry
    rcases List.mem_append.1 hentry with hold | hnew
    · obtain ⟨disposed, hstanding⟩ := h.sited entry hold
      refine ⟨disposed, ?_⟩
      rw [Network.standings_addPool_of_lt (Network.lt_length_of_standing hstanding)]
      exact hstanding
    · rw [List.mem_singleton] at hnew
      subst hnew
      refine ⟨pool.disposed, ?_⟩
      rw [Network.standings_addPool_self, Pool.standing, hsite _ _ hpool]
  · intro id site hstanding
    rw [ids, List.map_append, List.mem_append]
    rcases Nat.lt_or_ge id pools.network.pools.length with hlt | hge
    · rw [Network.standings_addPool_of_lt hlt] at hstanding
      exact .inl (h.retired id site hstanding)
    · right
      have hlt := Network.lt_length_of_standing hstanding
      simp only [Network.addPool, List.length_append, List.length_singleton] at hlt
      exact List.mem_singleton.2 (Nat.le_antisymm (Nat.le_of_lt_succ hlt) hge)

theorem openMissingFor (h : pools.Placed)
    (hsite : ∀ args pool, pools.factory args = .ok pool → pool.endpoint = args.endpoint)
    (list : List Address) : (pools.openMissingFor list).2.Placed := by
  have hboth := openMissingFor_induction
    (fun current => current.Placed ∧ current.factory = pools.factory) ?_ list pools ⟨h, rfl⟩
  · exact hboth.1
  · intro current endpoint next hcurrent _ hopen
    have hplaced := hcurrent.1.openPool (hcurrent.2 ▸ hsite) hopen
    obtain ⟨pool, -, rfl⟩ := openPool_eq_ok hopen
    exact ⟨hplaced, hcurrent.2⟩

/-- What is taken out of the map is disposed. -/
theorem takenOut (h : pools.Placed) {keep : Address → Bool}
    (hout : TakenOut pools after keep) : after.Placed := by
  refine ⟨?_, ?_⟩
  · intro entry hentry
    rw [hout.entries] at hentry
    obtain ⟨disposed, hstanding⟩ := h.sited entry (List.mem_filter.1 hentry).1
    rw [hout.standings, hstanding]
    split
    · exact ⟨true, rfl⟩
    · exact ⟨disposed, rfl⟩
  · intro id site hstanding
    rw [hout.standings] at hstanding
    split at hstanding
    · cases hold : pools.network.standings[id]? <;> simp [hold] at hstanding
    · rename_i hnot
      obtain ⟨entry, hentry, rfl⟩ := List.mem_map.1 (h.retired id site hstanding)
      have hkept : keep entry.1 = true := by
        by_contra hdropped
        apply hnot
        exact List.mem_map.2 ⟨entry, List.mem_filter.2 ⟨hentry, by simpa using hdropped⟩, rfl⟩
      rw [ids, hout.entries]
      exact List.mem_map.2 ⟨entry, List.mem_filter.2 ⟨hentry, hkept⟩, rfl⟩

/-- Where the map is empty, every pool is disposed. -/
theorem disposed_of_entries_nil (h : pools.Placed) (hnil : pools.entries = []) {pool : Pool}
    (hmem : pool ∈ pools.network.pools) : pool.disposed = true := by
  obtain ⟨id, hid⟩ := List.mem_iff_getElem?.1 hmem
  cases hdisposed : pool.disposed with
  | true => rfl
  | false =>
      have hstanding := Network.standing_of_pool hid
      rw [hdisposed] at hstanding
      have hin := h.retired id pool.endpoint hstanding
      simp [ids, hnil] at hin

end Placed

end EndpointPools
end RingRouting
