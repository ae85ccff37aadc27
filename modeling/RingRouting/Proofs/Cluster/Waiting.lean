import Mathlib.Data.List.Perm.Subperm
import RingRouting.Proofs.Cluster.Conservation
import RingRouting.Proofs.Cluster.Coverage
import RingRouting.Proofs.Cluster.Planning

/-!
# Connect calls that wait

A connect call that waits remembers the version of the view in which it was planned.  As
long as this is the current version, the pool it waits on is the one of its endpoint and
is not disposed.  A connection that comes too late thus shows that the view has changed.

Main results:

- Theorem `Attempt.length_ofCall_le`: attempts in ever later views are few.
- Theorem `Cluster.Follows.attempted`: a call that begins to wait follows its attempt.
- Theorem `Cluster.Follows.completed`: answers of the transport keep this, and disposed
  pools are met only by calls whose view is out of date.
- Theorem `Cluster.Follows.refreshed`: so does a refresh.
-/

namespace RingRouting

/-! ## Attempts -/

/-- The attempts of a call, in order. -/
def Attempt.ofCall (attempts : List Attempt) (call : CallId) : List Attempt :=
  attempts.filter fun attempt => attempt.call == call

theorem Attempt.mem_ofCall_iff {attempts : List Attempt} {call : CallId} {attempt : Attempt} :
    attempt ∈ ofCall attempts call ↔ attempt ∈ attempts ∧ attempt.call = call := by
  simp [ofCall]

/-- Attempts of other calls do not matter. -/
theorem Attempt.ofCall_append_of_ne {attempts more : List Attempt} {call : CallId}
    (hother : ∀ attempt ∈ more, attempt.call ≠ call) :
    ofCall (attempts ++ more) call = ofCall attempts call := by
  have hnone : ofCall more call = [] := by
    apply List.filter_eq_nil_iff.2
    intro attempt hattempt
    simpa using hother attempt hattempt
  unfold ofCall at hnone ⊢
  rw [List.filter_append, hnone, List.append_nil]

/-- The last attempt of a call. -/
def Attempt.lastOf (attempts : List Attempt) (call : CallId) : Option Attempt :=
  (ofCall attempts call).getLast?

theorem Attempt.lastOf_append_self (attempts : List Attempt) (attempt : Attempt) :
    lastOf (attempts ++ [attempt]) attempt.call = some attempt := by
  simp [lastOf, ofCall]

theorem Attempt.mem_of_lastOf {attempts : List Attempt} {call : CallId} {attempt : Attempt}
    (h : lastOf attempts call = some attempt) : attempt ∈ attempts ∧ attempt.call = call :=
  mem_ofCall_iff.1 (List.mem_of_getLast? h)

/-- Of two attempts of one call the second has the same key and a later view. -/
def Attempt.Precedes (first second : Attempt) : Prop :=
  first.call = second.call →
    first.key = second.key ∧ first.topology.version < second.topology.version

/-- Of the attempts of a call the last one has the latest view. -/
theorem Attempt.precedes_lastOf {attempts : List Attempt} (h : attempts.Pairwise Precedes)
    {call : CallId} {last : Attempt} (hlast : lastOf attempts call = some last)
    {attempt : Attempt} (hmem : attempt ∈ attempts) (hcall : attempt.call = call) :
    attempt = last ∨ attempt.Precedes last := by
  have hmine : attempt ∈ ofCall attempts call := mem_ofCall_iff.2 ⟨hmem, hcall⟩
  have hordered : (ofCall attempts call).Pairwise Precedes := h.filter _
  rcases List.getLast?_eq_some_iff.1 hlast with ⟨before, hsplit⟩
  rw [hsplit] at hmine hordered
  rcases List.mem_append.1 hmine with hbefore | hsame
  · right
    exact (List.pairwise_append.1 hordered).2.2 attempt hbefore last List.mem_cons_self
  · left
    exact List.mem_singleton.1 hsame

/-- A call has made at most one attempt in each view. -/
theorem Attempt.length_ofCall_le {attempts : List Attempt} (h : attempts.Pairwise Precedes)
    {call : CallId} {low high : Nat} (hle : low ≤ high)
    (hrange : ∀ attempt ∈ attempts, attempt.call = call →
      low ≤ attempt.topology.version ∧ attempt.topology.version ≤ high) :
    (ofCall attempts call).length + low ≤ high + 1 := by
  let versions := (ofCall attempts call).map fun attempt => attempt.topology.version
  have hnodup : versions.Nodup := by
    refine List.pairwise_map.2 ((h.filter _).imp_of_mem ?_)
    intro first second hfirst hsecond hprecedes
    have hcall : first.call = second.call := by
      rw [(mem_ofCall_iff.1 hfirst).2, (mem_ofCall_iff.1 hsecond).2]
    exact Nat.ne_of_lt (hprecedes hcall).2
  have hsubset : versions ⊆ List.range' low (high + 1 - low) := by
    intro version hversion
    rcases List.mem_map.1 hversion with ⟨attempt, hattempt, rfl⟩
    rcases mem_ofCall_iff.1 hattempt with ⟨hmem, hcall⟩
    have hbounds := hrange attempt hmem hcall
    rw [List.mem_range'_1]
    omega
  have hlength := (List.Nodup.subperm hnodup hsubset).length_le
  rw [List.length_map, List.length_range'] at hlength
  omega

/-- The endpoint is a replica of the token of the attempt's key, in the view in which the
attempt was planned. -/
def Settings.Owns (settings : Settings) (attempt : Attempt) (endpoint : Address) : Prop :=
  ∃ token, settings.partitioner.token attempt.key = .ok (some token) ∧
    endpoint ∈ (attempt.topology.view.replicas token
      settings.replicationFactor.count).map Peer.address

/-- New pools change nothing about where the others lead. -/
theorem Network.Leads.openMissing {pools : EndpointPools Purpose} {id : PoolId}
    {endpoint : Address} (h : pools.network.Leads id endpoint) (view : ClusterView) :
    (pools.openMissing view).2.network.Leads id endpoint := by
  refine EndpointPools.openMissingFor_induction
    (fun after => after.network.Leads id endpoint) ?_ view.addresses pools h
  intro current other after hlead _ hopen
  rcases EndpointPools.openPool_eq_ok hopen with ⟨pool, -, rfl⟩
  exact hlead.addPool pool

/-- Disposing pools adds no call but the one that disposes. -/
theorem Network.Disposed.calls {network : Network Purpose} {disposing : CallId}
    {purpose : Purpose} {ids : List PoolId} {result : Network Purpose × Progress Purpose}
    (h : network.Disposed disposing purpose ids result) :
    ∀ call ∈ result.1.calls, call ∈ network.calls ∨ call.purpose = purpose := by
  have hcalls : (network.disposePools ids).2.calls = network.calls := by
    rw [Network.disposePools_eq]
  intro call hcall
  cases h with
  | quiet =>
      left
      rw [← hcalls]
      exact hcall
  | closing =>
      rcases List.mem_append.1 hcall with hold | hnew
      · left
        rw [← hcalls]
        exact hold
      · right
        rw [List.mem_singleton.1 hnew]

namespace Cluster

/-- A pick is a replica in the current view. -/
theorem Chooses.owns {cluster : Cluster} (hlibrary : cluster.HasLibraryStrategy)
    {key : PartitionKey} {endpoint : Address} (h : cluster.Chooses key endpoint)
    (call : CallId) : cluster.settings.Owns ⟨call, key, cluster.topology⟩ endpoint := by
  rcases h.replica hlibrary with ⟨token, htoken, hmem⟩
  refine ⟨token, ?_, hmem⟩
  unfold Cluster.token at htoken
  split at htoken
  · cases htoken
  · cases htoken
  · rename_i found hfound
    cases htoken
    exact hfound

/-- A pick is a member of the view, and has a pool that is not disposed. -/
theorem Chooses.pool {cluster : Cluster} (hlibrary : cluster.HasLibraryStrategy)
    (hcovered : cluster.Covered) {key : PartitionKey} {endpoint : Address}
    (h : cluster.Chooses key endpoint) :
    ∃ id pool, cluster.pools.find? endpoint = some id ∧ cluster.pools.pool? id = some pool ∧
      pool.disposed = false := by
  rcases h.replica hlibrary with ⟨token, -, hmem⟩
  exact hcovered.sound.exists_pool
    (hcovered.members endpoint (ClusterView.mem_addresses_of_mem_replicas hmem))

/-! ## What a call waits on -/

/-- A connect call planned in that version waits on a pool that leads to the endpoint.
While the version is the current one, the pool is the endpoint's, and no connection has
come too late. -/
def Awaits (cluster : Cluster) (wait : Wait) (version : Nat) (endpoint : Address) : Prop :=
  version ≤ cluster.topology.version ∧
    ∃ id, cluster.pools.network.Leads id endpoint ∧
      (wait = .opening id ∧
          (version = cluster.topology.version → cluster.pools.find? endpoint = some id) ∨
        ∃ connection, wait = .discarding id connection ∧ version < cluster.topology.version)

/-- A call goes on waiting on its pool while its endpoint keeps the pool, or once the view
is out of date. -/
theorem Awaits.mono {cluster after : Cluster} {wait : Wait} {version : Nat}
    {endpoint : Address} (h : cluster.Awaits wait version endpoint)
    (hleads : ∀ id, cluster.pools.network.Leads id endpoint →
      after.pools.network.Leads id endpoint)
    (hview : after.topology.version = cluster.topology.version ∧
        (∀ id, cluster.pools.find? endpoint = some id →
          after.pools.find? endpoint = some id) ∨
      cluster.topology.version < after.topology.version) :
    after.Awaits wait version endpoint := by
  rcases h with ⟨hle, id, hlead, hwait⟩
  rcases hview with ⟨hsame, hfind⟩ | hlater
  · refine ⟨by omega, id, hleads id hlead, ?_⟩
    rcases hwait with ⟨hopening, hcurrent⟩ | ⟨connection, hdiscarding, hlt⟩
    · exact .inl ⟨hopening, fun heq => hfind id (hcurrent (by omega))⟩
    · exact .inr ⟨connection, hdiscarding, by omega⟩
  · refine ⟨by omega, id, hleads id hlead, ?_⟩
    rcases hwait with ⟨hopening, -⟩ | ⟨connection, hdiscarding, hlt⟩
    · exact .inl ⟨hopening, fun heq => absurd heq (by omega)⟩
    · exact .inr ⟨connection, hdiscarding, by omega⟩

/-- Every connect call that waits was planned in its last attempt, and picked a replica
there. -/
def Follows (cluster : Cluster) (attempts : List Attempt) : Prop :=
  ∀ call ∈ cluster.pools.network.calls, ∀ key version endpoint,
    call.purpose = .connect key version endpoint →
      cluster.Awaits call.wait version endpoint ∧
        ∃ attempt, Attempt.lastOf attempts call.id = some attempt ∧ attempt.key = key ∧
          attempt.topology.version = version ∧ cluster.settings.Owns attempt endpoint

namespace Follows

variable {cluster after : Cluster} {attempts : List Attempt} {call : CallId}
  {others : List CallId} {result : Cluster × ClusterProgress}

/-- Connect calls that go on waiting follow their attempts. -/
theorem mono (h : cluster.Follows attempts)
    (hcalls : ∀ call ∈ after.pools.network.calls,
      call ∈ cluster.pools.network.calls ∨ call.purpose.isConnect = false)
    (hsettings : after.settings = cluster.settings)
    (hawaits : ∀ wait version endpoint, cluster.Awaits wait version endpoint →
      after.Awaits wait version endpoint) : after.Follows attempts := by
  intro call hcall key version endpoint hpurpose
  rcases hcalls call hcall with hold | hnot
  · rcases h call hold key version endpoint hpurpose with ⟨hawait, hlast⟩
    rw [hsettings]
    exact ⟨hawaits _ _ _ hawait, hlast⟩
  · rw [hpurpose] at hnot
    cases hnot

/-- Only the calls, the standings, the map, the version and the settings matter. -/
theorem congr (h : cluster.Follows attempts)
    (hcalls : after.pools.network.calls = cluster.pools.network.calls)
    (hstandings : after.pools.network.standings = cluster.pools.network.standings)
    (hentries : after.pools.entries = cluster.pools.entries)
    (hversion : after.topology.version = cluster.topology.version)
    (hsettings : after.settings = cluster.settings) : after.Follows attempts := by
  refine h.mono (fun call hcall => .inl (hcalls ▸ hcall)) hsettings ?_
  intro wait version endpoint hawait
  refine hawait.mono (fun id hlead => hlead.congr hstandings) (.inl ⟨hversion, ?_⟩)
  intro id hfind
  unfold EndpointPools.find? at hfind ⊢
  rw [hentries]
  exact hfind

/-- Attempts of a call that does not wait do not matter. -/
theorem append (h : cluster.Follows attempts) {attempt : Attempt}
    (hother : attempt.call ∉ cluster.pools.network.callIds) :
    cluster.Follows (attempts ++ [attempt]) := by
  intro call hcall key version endpoint hpurpose
  have hne : ∀ new ∈ [attempt], new.call ≠ call.id := by
    intro new hnew hsame
    rw [List.mem_singleton] at hnew
    subst hnew
    apply hother
    rw [hsame]
    exact List.mem_map.2 ⟨call, hcall, rfl⟩
  rw [Attempt.lastOf, Attempt.ofCall_append_of_ne hne]
  exact h call hcall key version endpoint hpurpose

/-- A call that is not for a connection may wait. -/
theorem suspend (h : cluster.Follows attempts) {network : Network Purpose}
    (hcalls : network.calls = cluster.pools.network.calls)
    (hstandings : network.standings = cluster.pools.network.standings) {purpose : Purpose}
    (hnot : purpose.isConnect = false) (wait : Wait) :
    (cluster.setNetwork (network.suspend call purpose wait)).Follows attempts := by
  refine h.mono ?_ rfl ?_
  · intro other hother
    rcases List.mem_append.1 hother with hold | hnew
    · exact .inl (hcalls ▸ hold)
    · rw [List.mem_singleton.1 hnew]
      exact .inr hnot
  · intro waits version endpoint hawait
    exact hawait.mono (fun id hlead => hlead.congr hstandings) (.inl ⟨rfl, fun _ h => h⟩)

/-- The return of a lease lets calls follow their attempts. -/
theorem released {id : PoolId} {connection : Connection} (h : cluster.Follows attempts)
    (hresult : Released cluster call id connection result) : result.1.Follows attempts := by
  have hstandings := hresult.standings
  cases hresult with
  | missing => exact h
  | closing => exact h.suspend rfl rfl rfl _
  | kept => exact h.congr rfl hstandings rfl rfl rfl

/-- An attempt ends its call, or lets it wait on the pool of its endpoint. -/
theorem attempted {key : PartitionKey} (h : cluster.Follows attempts)
    (hlibrary : cluster.HasLibraryStrategy) (hplaced : cluster.pools.Placed)
    (hfresh : call ∉ cluster.pools.network.callIds)
    (hresult : Attempted cluster call key result) :
    result.1.Follows (attempts ++ [⟨call, key, cluster.topology⟩]) := by
  have happend : cluster.Follows (attempts ++ [⟨call, key, cluster.topology⟩]) :=
    h.append hfresh
  have hstandings := hresult.standings
  cases hresult with
  | failed => exact happend.congr rfl rfl rfl rfl rfl
  | missing => exact happend.congr rfl rfl rfl rfl rfl
  | reused => exact happend.congr rfl hstandings rfl rfl rfl
  | @opening _ _ site id pool hchooses hfind =>
      intro other hother otherKey version endpoint hpurpose
      rcases List.mem_append.1 hother with hold | hnew
      · rcases happend other hold otherKey version endpoint hpurpose with ⟨hawait, hlast⟩
        exact ⟨hawait.mono (fun _ hlead => hlead) (.inl ⟨rfl, fun _ hsame => hsame⟩), hlast⟩
      · rw [List.mem_singleton] at hnew
        subst hnew
        cases hpurpose
        refine ⟨⟨Nat.le_refl _, id, hplaced.exists_standing hfind, .inl ⟨rfl, fun _ => hfind⟩⟩,
          ⟨call, key, cluster.topology⟩, ?_, rfl, rfl, hchooses.owns hlibrary call⟩
        exact Attempt.lastOf_append_self attempts ⟨call, key, cluster.topology⟩

/-- The pool of a current endpoint is not disposed. -/
theorem lt_of_disposed (hcovered : cluster.Covered) {wait : Wait} {version : Nat}
    {endpoint : Address} {id : PoolId} {pool : Pool}
    (h : cluster.Awaits wait version endpoint) (hwait : wait = .opening id)
    (hpool : cluster.pools.network.pools[id]? = some pool) (hdisposed : pool.disposed = true) :
    version < cluster.topology.version := by
  rcases h with ⟨hle, own, -, ⟨hopening, hcurrent⟩ | ⟨connection, hdiscarding, -⟩⟩
  · rw [hopening] at hwait
    cases hwait
    rcases Nat.lt_or_eq_of_le hle with hlt | heq
    · exact hlt
    · have hentry := EndpointPools.mem_entries_of_find? (hcurrent heq)
      rcases hcovered.sound.live id (List.mem_map.2 ⟨_, hentry, rfl⟩) with ⟨site, hlive⟩
      rw [Network.standing_of_pool hpool, hdisposed] at hlive
      cases hlive
  · rw [hdiscarding] at hwait
    cases hwait

/-- A call that an answer lets wait again follows its attempt if it now waits for something
that the version and the endpoint of the attempt allow. -/
theorem waitsAgain {network : Network Purpose} {waiting : Call Purpose} {wait : Wait}
    (h : cluster.Follows attempts) (hcall : waiting ∈ cluster.pools.network.calls)
    (hcalls : network.calls = (cluster.pools.network.resume waiting.id).calls ++
      [⟨waiting.id, waiting.purpose, wait⟩])
    (hstandings : network.standings = cluster.pools.network.standings)
    (hwait : ∀ version endpoint, cluster.Awaits waiting.wait version endpoint →
      cluster.Awaits wait version endpoint) :
    (cluster.setNetwork network).Follows attempts := by
  have hawaits : ∀ wait version endpoint, cluster.Awaits wait version endpoint →
      (cluster.setNetwork network).Awaits wait version endpoint := by
    intro waits version endpoint hawait
    exact hawait.mono (fun id hlead => hlead.congr hstandings) (.inl ⟨rfl, fun _ hsame => hsame⟩)
  intro other hother key version endpoint hpurpose
  have hmem : other ∈ network.calls := hother
  rw [hcalls] at hmem
  rcases List.mem_append.1 hmem with hold | hnew
  · rcases h other (List.mem_filter.1 hold).1 key version endpoint hpurpose with
      ⟨hawait, hlast⟩
    exact ⟨hawaits _ _ _ hawait, hlast⟩
  · rw [List.mem_singleton] at hnew
    subst hnew
    rcases h waiting hcall key version endpoint hpurpose with ⟨hawait, hlast⟩
    exact ⟨hawaits _ _ _ (hwait version endpoint hawait), hlast⟩

/-- An answer of the transport lets calls follow their attempts. -/
theorem completed {network : Network Purpose} {progress : Progress Purpose}
    (h : cluster.Follows attempts) (hcovered : cluster.Covered)
    (hcompleted : cluster.pools.network.Completed (network, progress)) :
    (cluster.setNetwork network).Follows attempts := by
  have hawaits : ∀ wait version endpoint, cluster.Awaits wait version endpoint →
      (cluster.setNetwork network).Awaits wait version endpoint := by
    intro wait version endpoint hawait
    exact hawait.mono (fun id hlead => hlead.congr hcompleted.standings)
      (.inl ⟨rfl, fun _ hsame => hsame⟩)
  have hresumed : ∀ id, ∀ call ∈ (cluster.pools.network.resume id).calls,
      call ∈ cluster.pools.network.calls ∨ call.purpose.isConnect = false :=
    fun id call hcall => .inl (List.mem_filter.1 hcall).1
  cases hcompleted with
  | ignored => exact h
  | lent => exact h.mono (hresumed _) rfl hawaits
  | unreachable => exact h.mono (hresumed _) rfl hawaits
  | discarded => exact h.mono (hresumed _) rfl hawaits
  | lastClosed => exact h.mono (hresumed _) rfl hawaits
  | @late waiting id pool hcall hwait hpool hdisposed =>
      refine h.waitsAgain hcall rfl rfl ?_
      intro version endpoint hawait
      have hlt := lt_of_disposed hcovered hawait hwait hpool hdisposed
      rcases hawait with ⟨hle, own, hlead, ⟨hopening, -⟩ | ⟨_, hgone, -⟩⟩
      · rw [hopening] at hwait
        cases hwait
        exact ⟨hle, id, hlead, .inr ⟨_, rfl, hlt⟩⟩
      · rw [hgone] at hwait
        cases hwait
  | @oneClosed waiting left connection hcall hwait =>
      refine h.waitsAgain hcall rfl rfl ?_
      -- a connect call never waits for the end of several connections
      rintro version endpoint ⟨-, own, -, ⟨hopening, -⟩ | ⟨_, hgone, -⟩⟩
      · rw [hopening] at hwait
        cases hwait
      · rw [hgone] at hwait
        cases hwait

/-- Making pools, even if not all of them, lets calls follow their attempts. -/
theorem openMissing (h : cluster.Follows attempts) (view : ClusterView) :
    { cluster with pools := (cluster.pools.openMissing view).2 }.Follows attempts := by
  have hcalls : (cluster.pools.openMissing view).2.network.calls =
      cluster.pools.network.calls := by rw [cluster.pools.network_openMissing view]
  have hopened := cluster.settings_openMissing view
  refine h.mono ?_ (settings_withPools hopened.1 hopened.2) ?_
  · intro other hother
    left
    rw [← hcalls]
    exact hother
  · intro wait version endpoint hawait
    refine hawait.mono (fun id hlead => hlead.openMissing view) (.inl ⟨rfl, ?_⟩)
    intro id hfind
    exact EndpointPools.find?_openMissingFor view.addresses cluster.pools hfind

/-- A view that is published makes all calls wait in views that are out of date. -/
theorem withView {view : ClusterView} {topology : Topology}
    {outcome : Network Purpose × Progress Purpose} (h : cluster.Follows attempts)
    (hbuild : cluster.buildTopology view = .ok topology)
    (hdisposed : (cluster.pools.openMissing view).2.network.Disposed call .refresh
      ((cluster.pools.openMissing view).2.dropped (EndpointPools.isMember view)) outcome) :
    (cluster.withView view topology outcome.1).Follows attempts := by
  rcases buildTopology_eq_ok hbuild with ⟨hversion, -, -⟩
  have hcalls : (cluster.pools.openMissing view).2.network.calls =
      cluster.pools.network.calls := by rw [cluster.pools.network_openMissing view]
  have hopened := cluster.settings_openMissing view
  refine h.mono ?_ (settings_withPools hopened.1 hopened.2) ?_
  · intro other hother
    rcases hdisposed.calls other hother with hold | hrefresh
    · left
      rw [← hcalls]
      exact hold
    · right
      rw [hrefresh]
      rfl
  · intro wait version endpoint hawait
    refine hawait.mono (fun id hlead => (hlead.openMissing view).disposed hdisposed) (.inr ?_)
    have hnew : (cluster.withView view topology outcome.1).topology.version =
        cluster.topology.version + 1 := hversion
    omega

/-- The end of a refresh lets calls follow their attempts. -/
theorem endRefresh (h : cluster.Follows attempts) (outcome : Outcome) :
    (cluster.endRefresh call outcome).1.Follows attempts := by
  rcases cluster.endRefresh_eq call outcome with ⟨queue, requests, hend⟩
  rw [hend]
  exact h.congr rfl rfl rfl rfl rfl

/-- A refresh, whether it succeeds or not, lets calls follow their attempts. -/
theorem refreshed {view : ClusterView} (hresult : Refreshed cluster call view result)
    (h : cluster.Follows attempts) : result.1.Follows attempts := by
  cases hresult with
  | refused => exact h.endRefresh _
  | unopened => exact (h.openMissing view).endRefresh _
  | closing hbuild _ hdisposed => exact h.withView hbuild hdisposed
  | published hbuild _ hdisposed => exact (h.withView hbuild hdisposed).endRefresh _

/-- In a cluster that was built no call waits. -/
theorem built {builder : ClusterBuilder} {entropy : Nat → Nat → UInt32}
    (hbuild : builder.build entropy = .ok cluster) (attempts : List Attempt) :
    cluster.Follows attempts := by
  intro call hcall
  rw [(ClusterBuilder.calls_of_build hbuild).1] at hcall
  cases hcall

end Follows

end Cluster
end RingRouting
