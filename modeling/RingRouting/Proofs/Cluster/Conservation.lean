import RingRouting.Proofs.Cluster.Order
import RingRouting.Proofs.Network.Ledger

/-!
# Connections are neither lost nor doubled

Over the pools of the library, every connection that was opened is at each moment in one
place: kept by one pool, held by one lease or by one call that asked for it, or closed.
Leases outlive the pools they came from, pools are taken out of the map and made anew for
the same endpoint, and connections come too late; a connection that has no place left is
closed.  After a shutdown nothing is kept any more.

Main results:

- Theorem `EndpointPools.Conserves.performed`: every event keeps the balance.
- Theorem `History.connections_conserved`: the places of connections, and what is left
  after a shutdown, over every run of events.
-/

namespace RingRouting

/-- Whether a call waits that asked for a connection. -/
def Wait.isAsking : Wait → Bool
  | opening _ => true
  | discarding _ _ => true
  | closing _ => false

/-- Whether a call is for a connection to a replica. -/
def Purpose.isConnect : Purpose → Bool
  | connect _ _ _ => true
  | _ => false

/-- The lease that the end of a call on the pools brings about. -/
def Finished.lease? (ended : Finished Purpose) : Option Lease :=
  match ended.purpose, ended.outcome with
  | .connect _ _ endpoint, .lent id connection => some ⟨endpoint, connection, id⟩
  | _, _ => none

/-- The cluster makes its pools by a policy of the library. -/
def Cluster.HasLibraryPools (cluster : Cluster) : Prop :=
  cluster.pools.factory = Activator.boundedPool ∨ cluster.pools.factory = Activator.noReusePool

/-- How pools are made is a matter of the settings. -/
theorem Cluster.HasLibraryPools.congr {cluster after : Cluster} (h : cluster.HasLibraryPools)
    (hsettings : after.settings = cluster.settings) : after.HasLibraryPools := by
  have hfactory : after.pools.factory = cluster.pools.factory :=
    congrArg Settings.poolFactory hsettings
  unfold Cluster.HasLibraryPools
  rw [hfactory]
  exact h

/-- A pool of the library serves the endpoint it was made for, is not disposed, and keeps
nothing yet. -/
theorem Cluster.HasLibraryPools.made {cluster : Cluster} (h : cluster.HasLibraryPools)
    {args : PoolArgs} {pool : Pool} (hpool : cluster.pools.factory args = .ok pool) :
    pool.endpoint = args.endpoint ∧ pool.disposed = false ∧ pool.idle = [] := by
  rcases h with h | h
  · rw [h] at hpool
    cases hpool
    exact ⟨rfl, rfl, rfl⟩
  · rw [h] at hpool
    cases hpool
    exact ⟨rfl, rfl, rfl⟩

namespace EndpointPools

/-! ## Balance -/

/-- The ledger is balanced with the connections of the leases; every lease can be given
back to a pool that leads where its connection leads; and only connect calls ask for
connections. -/
structure Conserves (pools : EndpointPools Purpose) (leases : List Lease) : Prop where
  ledger : pools.network.Ledger (leases.map Lease.connection)
  leads : ∀ lease ∈ leases, pools.network.Leads lease.pool lease.connection.endpoint
  placed : pools.Placed
  asked : ∀ call ∈ pools.network.calls, call.wait.isAsking = true →
    call.purpose.isConnect = true

namespace Conserves

variable {pools : EndpointPools Purpose} {leases : List Lease}

theorem newCall (h : pools.Conserves leases) : pools.newCall.2.Conserves leases :=
  ⟨h.ledger.newCall, h.leads, h.placed.congr rfl rfl, h.asked⟩

/-- It does not matter in which order the leases are listed. -/
theorem perm {listed : List Lease} (h : pools.Conserves leases) (hperm : leases.Perm listed) :
    pools.Conserves listed :=
  ⟨h.ledger.congr_lent (hperm.map _), fun lease hlease => h.leads lease (hperm.mem_iff.2 hlease),
    h.placed, h.asked⟩

/-- A call that asks for a connection waits for a connect call. -/
theorem asked_suspend (h : pools.Conserves leases) (call : CallId) {purpose : Purpose}
    {wait : Wait} (hasked : wait.isAsking = true → purpose.isConnect = true) :
    ∀ other ∈ (pools.network.suspend call purpose wait).calls,
      other.wait.isAsking = true → other.purpose.isConnect = true := by
  intro other hother
  rcases List.mem_append.1 hother with hold | hnew
  · exact h.asked other hold
  · rw [List.mem_singleton.1 hnew]
    exact hasked

/-- New pools keep nothing and change no balance. -/
theorem openMissing {cluster : Cluster} (hlibrary : cluster.HasLibraryPools)
    (h : cluster.pools.Conserves leases) (view : ClusterView) :
    (cluster.pools.openMissing view).2.Conserves leases := by
  have hpools := cluster.pools.network_openMissing view
  have hboth := openMissingFor_induction
    (fun pools => pools.factory = cluster.pools.factory ∧
      pools.network.Ledger (leases.map Lease.connection) ∧
      ∀ lease ∈ leases, pools.network.Leads lease.pool lease.connection.endpoint)
    ?_ view.addresses cluster.pools ⟨rfl, h.ledger, h.leads⟩
  · refine ⟨hboth.2.1, hboth.2.2, ?_, ?_⟩
    · exact h.placed.openMissingFor (fun args pool hpool => (hlibrary.made hpool).1) _
    · rw [hpools]
      exact h.asked
  · rintro pools endpoint after ⟨hfactory, hledger, hleads⟩ - hopen
    obtain ⟨pool, hpool, rfl⟩ := openPool_eq_ok hopen
    rw [hfactory] at hpool
    exact ⟨hfactory, hledger.addPool (hlibrary.made hpool).2.2,
      fun lease hlease => (hleads lease hlease).addPool pool⟩

/-- Pools that are taken out are drained. -/
theorem keeping (h : pools.Conserves leases) {keep : Address → Bool} {call : CallId}
    {purpose : Purpose} {network : Network Purpose} {progress : Progress Purpose}
    (hdisposed : pools.network.Disposed call purpose (pools.dropped keep)
      (network, progress)) : (pools.keeping keep network).Conserves leases where
  ledger := h.ledger.disposed hdisposed
  leads := fun lease hlease => (h.leads lease hlease).disposed hdisposed
  placed := h.placed.takenOut (takenOut_keeping hdisposed)
  asked := by
    have hcalls : (pools.network.disposePools (pools.dropped keep)).2.calls =
        pools.network.calls := by rw [Network.disposePools_eq]
    cases hdisposed with
    | quiet =>
        simp only [EndpointPools.keeping, hcalls]
        exact h.asked
    | closing =>
        intro other hother
        simp only [EndpointPools.keeping, Network.suspend, hcalls] at hother
        rcases List.mem_append.1 hother with hold | hnew
        · exact h.asked other hold
        · rw [List.mem_singleton.1 hnew]
          intro hasking
          cases hasking

/-! ## Calls that are taken up -/

/-- Only a connect call is handed a connection. -/
theorem purpose_of_lent (h : pools.Conserves leases) {network : Network Purpose}
    {call : CallId} {purpose : Purpose} {id : PoolId} {connection : Connection}
    (hcompleted : pools.network.Completed
      (network, .finish call purpose (.lent id connection))) : purpose.isConnect = true := by
  rcases hcompleted.of_finish with ⟨waiting, hcall, -, rfl, -, hlent, -⟩
  exact h.asked waiting hcall (by rw [hlent id connection rfl]; rfl)

/-- The calls that wait after an answer ask for connections only as connect calls. -/
theorem asked_completed (h : pools.Conserves leases)
    {result : Network Purpose × Progress Purpose} (hcompleted : pools.network.Completed result) :
    ∀ call ∈ result.1.calls, call.wait.isAsking = true → call.purpose.isConnect = true := by
  have hresumed : ∀ id, ∀ call ∈ (pools.network.resume id).calls,
      call.wait.isAsking = true → call.purpose.isConnect = true :=
    fun id call hcall => h.asked call (List.mem_filter.1 hcall).1
  cases hcompleted with
  | ignored => exact h.asked
  | lent => exact hresumed _
  | unreachable => exact hresumed _
  | discarded => exact hresumed _
  | lastClosed => exact hresumed _
  | @late waiting _ _ hcall hwait =>
      have hconnect := h.asked waiting hcall (by rw [hwait]; rfl)
      intro call hmem
      rcases List.mem_append.1 hmem with hold | hnew
      · exact hresumed _ call hold
      · rw [List.mem_singleton.1 hnew]
        exact fun _ => hconnect
  | oneClosed =>
      intro call hmem
      rcases List.mem_append.1 hmem with hold | hnew
      · exact hresumed _ call hold
      · rw [List.mem_singleton.1 hnew]
        intro hasking
        cases hasking

/-- A call that waits again hands out nothing. -/
theorem waits (h : pools.Conserves leases) (hnodup : pools.network.callIds.Nodup)
    {network : Network Purpose} {requests : List Request}
    (hcompleted : pools.network.Completed (network, .ask requests)) :
    Conserves { pools with network := network } leases where
  ledger := (h.ledger.completed hnodup hcompleted).congr_lent
    (by simp [Progress.lent, Progress.ask])
  leads := fun lease hlease => (h.leads lease hlease).congr hcompleted.standings
  placed := h.placed.congr rfl hcompleted.standings
  asked := h.asked_completed hcompleted

/-- A call that ends hands out at most one lease. -/
theorem ends (h : pools.Conserves leases) (hnodup : pools.network.callIds.Nodup)
    {network : Network Purpose} {call : CallId} {purpose : Purpose} {outcome : PoolOutcome}
    (hcompleted : pools.network.Completed (network, .finish call purpose outcome)) :
    Conserves { pools with network := network }
      (leases ++ (Finished.lease? ⟨call, purpose, outcome⟩).toList) := by
  have hledger := h.ledger.completed hnodup hcompleted
  have hleads : ∀ lease ∈ leases, network.Leads lease.pool lease.connection.endpoint :=
    fun lease hlease => (h.leads lease hlease).congr hcompleted.standings
  have hlent : (Progress.finish call purpose outcome).lent =
      (Finished.lease? ⟨call, purpose, outcome⟩).toList.map Lease.connection := by
    cases outcome with
    | failed => cases purpose <;> rfl
    | done => cases purpose <;> rfl
    | lent id connection =>
        have hconnect := h.purpose_of_lent hcompleted
        cases purpose with
        | connect => rfl
        | direct => cases hconnect
        | refresh => cases hconnect
  refine ⟨?_, ?_, h.placed.congr rfl hcompleted.standings, h.asked_completed hcompleted⟩
  · rw [List.map_append, ← hlent]
    exact hledger
  · intro lease hlease
    rcases List.mem_append.1 hlease with hold | hnew
    · exact hleads lease hold
    · cases purpose with
      | direct => cases hnew
      | refresh => cases hnew
      | connect key version endpoint =>
          cases outcome with
          | failed => cases hnew
          | done => cases hnew
          | lent id connection =>
              simp only [Finished.lease?, Option.toList_some, List.mem_singleton] at hnew
              subst hnew
              exact hcompleted.leads List.mem_cons_self

/-! ## Steps of a cluster -/

variable {cluster : Cluster} {call : CallId} {others : List CallId}
  {result : Cluster × ClusterProgress}

theorem attempted {key : PartitionKey} (h : cluster.pools.Conserves leases)
    (hresult : cluster.Attempted call key result) :
    result.1.pools.Conserves (leases ++ result.2.leases) := by
  have hstandings := hresult.standings
  cases hresult with
  | failed => exact h.perm (by simp [ClusterProgress.leases, ClusterProgress.finish,
      Outcome.lease?])
  | missing => exact h.perm (by simp [ClusterProgress.leases, ClusterProgress.none])
  | @opening _ _ endpoint id pool =>
      have hledger := h.ledger.suspend call
        (.connect key cluster.topology.version endpoint) (.opening id)
        (fun c => (rfl : _ = (leases.map Lease.connection).count c))
      refine perm ⟨hledger, h.leads, h.placed.congr rfl rfl, ?_⟩
        (by simp [ClusterProgress.leases])
      exact h.asked_suspend call (fun _ => rfl)
  | @reused _ _ endpoint id pool after connection _ _ hpool hreused =>
      have hacquired : cluster.pools.network.Acquired call .direct id
          (cluster.pools.network.setPool id after, .finish call .direct (.lent id connection)) :=
        .reused hpool hreused
      refine ⟨?_, ?_, h.placed.congr rfl hstandings, h.asked⟩
      · rw [List.map_append]
        exact h.ledger.acquired hacquired
      · intro lease hlease
        rcases List.mem_append.1 hlease with hold | hnew
        · exact (h.leads lease hold).congr hstandings
        · simp only [ClusterProgress.leases, ClusterProgress.finish, Outcome.lease?,
            List.filterMap_cons, List.filterMap_nil, List.mem_singleton] at hnew
          subst hnew
          have hsite := ((h.ledger.pool_tidy hpool).acquire hreused).2
          simp only [hsite]
          exact (Network.leads_of_pool hpool).congr hstandings

/-- A lease that is given back is the one less. -/
theorem released {lease : Lease} (h : cluster.pools.Conserves (lease :: leases))
    (hresult : cluster.Released call lease.pool lease.connection result) :
    result.1.pools.Conserves (leases ++ result.2.leases) := by
  obtain ⟨disposed, hstanding⟩ := h.leads lease List.mem_cons_self
  have hleads : ∀ other ∈ leases,
      cluster.pools.network.Leads other.pool other.connection.endpoint :=
    fun other hother => h.leads other (List.mem_cons_of_mem _ hother)
  have hstandings := hresult.standings
  cases hresult with
  | missing hpool =>
      rw [Network.standings_getElem?, hpool] at hstanding
      cases hstanding
  | @kept pool hpool hkept =>
      rw [Network.standing_of_pool hpool, Option.some.injEq, Prod.mk.injEq] at hstanding
      refine perm ⟨h.ledger.kept hpool hstanding.1.symm hkept, ?_,
        h.placed.congr rfl hstandings, h.asked⟩
        (by simp [ClusterProgress.leases, ClusterProgress.finish, Outcome.lease?])
      exact fun other hother => (hleads other hother).congr hstandings
  | closing =>
      refine perm ⟨h.ledger.returned call .direct, hleads, h.placed.congr rfl rfl, ?_⟩
        (by simp [ClusterProgress.leases])
      refine h.asked_suspend call ?_
      intro hasking
      cases hasking

theorem endRefresh (cluster : Cluster) (h : cluster.pools.Conserves leases)
    (outcome : Outcome) (hlease : outcome.lease? = none) :
    (cluster.endRefresh call outcome).1.pools.Conserves
      (leases ++ (cluster.endRefresh call outcome).2.leases) := by
  obtain ⟨queue, requests, hend⟩ := cluster.endRefresh_eq call outcome
  rw [hend]
  exact h.perm (by simp [ClusterProgress.leases, hlease])

theorem refreshed {view : ClusterView} (hresult : cluster.Refreshed call view result)
    (hlibrary : cluster.HasLibraryPools) (h : cluster.pools.Conserves leases) :
    result.1.pools.Conserves (leases ++ result.2.leases) := by
  have hopened := h.openMissing hlibrary view
  cases hresult with
  | refused => exact endRefresh cluster h _ rfl
  | unopened => exact endRefresh _ hopened _ rfl
  | closing _ _ hdisposed =>
      exact (hopened.keeping hdisposed).perm (by simp [ClusterProgress.leases])
  | published _ _ hdisposed =>
      exact endRefresh _ (hopened.keeping hdisposed) _ rfl

theorem shutDown (h : cluster.pools.Conserves leases)
    (hresult : cluster.ShutDown call result) :
    result.1.pools.Conserves (leases ++ result.2.leases) := by
  cases hresult with
  | quiet hdisposed =>
      exact (h.keeping hdisposed).perm
        (by simp [ClusterProgress.leases, ClusterProgress.finish, Outcome.lease?])
  | closing hdisposed =>
      exact (h.keeping hdisposed).perm (by simp [ClusterProgress.leases])

theorem absorbed {ended : Finished Purpose} (hresult : cluster.Absorbed ended result)
    (h : cluster.pools.Conserves (leases ++ ended.lease?.toList)) :
    result.1.pools.Conserves (leases ++ result.2.leases) := by
  rcases ended with ⟨call, purpose, outcome⟩
  cases hresult with
  | direct hpurpose =>
      simp only at hpurpose
      subst hpurpose
      cases outcome <;> exact h
  | concluded hpurpose =>
      simp only at hpurpose
      subst hpurpose
      cases outcome <;> exact h
  | replanned _ houtcome _ hattempted =>
      simp only at houtcome
      subst houtcome
      refine attempted (h.perm ?_) hattempted
      cases purpose <;> simp [Finished.lease?]
  | refresh hpurpose =>
      simp only at hpurpose
      subst hpurpose
      refine endRefresh cluster (h.perm ?_) _ rfl
      simp [Finished.lease?]

theorem answered {completion : Completion} (hlibrary : cluster.HasLibraryPools)
    (horderly : cluster.Orderly others 0) (h : cluster.pools.Conserves leases)
    (hresult : cluster.Answered completion result) :
    result.1.pools.Conserves (leases ++ result.2.leases) := by
  have hnodup := horderly.numbered.callIds_nodup
  cases hresult with
  | ignored => exact h.perm (by simp [ClusterProgress.leases, ClusterProgress.none])
  | turn _ _ hrefreshed => exact refreshed hrefreshed hlibrary h
  | waits hcompleted =>
      exact (h.waits hnodup hcompleted).perm (by simp [ClusterProgress.leases])
  | ends hcompleted _ habsorbed => exact absorbed habsorbed (h.ends hnodup hcompleted)

/-- Every event that is possible keeps the balance of connections. -/
theorem performed {event : Event} (hlibrary : cluster.HasLibraryPools)
    (horderly : cluster.Orderly others 0) (h : cluster.pools.Conserves leases)
    (hpossible : event.isPossible leases = true)
    (hresult : cluster.Performed event result) :
    result.1.pools.Conserves (event.leasesLeft leases ++ result.2.leases) := by
  have hnew : cluster.newCall.2.pools.Conserves leases := h.newCall
  cases hresult with
  | plan => exact h.perm (by simp [ClusterProgress.leases, ClusterProgress.none,
      Event.leasesLeft])
  | connect hattempted => exact hnew.attempted hattempted
  | @release lease _ hreleased =>
      have hmem : lease ∈ leases := by simpa [Event.isPossible] using hpossible
      exact (hnew.perm (List.perm_cons_erase hmem)).released hreleased
  | queued => exact hnew.perm (by simp [ClusterProgress.leases, ClusterProgress.none,
      Event.leasesLeft])
  | refresh _ hrefreshed => exact refreshed hrefreshed hlibrary hnew
  | shutdown hshutDown => exact hnew.shutDown hshutDown
  | answer hanswered => exact h.answered hlibrary horderly hanswered

/-- A cluster that was built has opened nothing. -/
theorem built {builder : ClusterBuilder} {entropy : Nat → Nat → UInt32}
    (hbuild : builder.build entropy = .ok cluster) (hlibrary : cluster.HasLibraryPools) :
    cluster.pools.Conserves [] := by
  obtain ⟨-, blank, hblank, hfirst⟩ := ClusterBuilder.build_eq_ok hbuild
  have hconserves : blank.pools.Conserves [] := by
    refine ⟨?_, by simp, ⟨by simp [hblank.entries], ?_⟩, ?_⟩
    · rw [hblank.network]
      exact .empty
    · intro id site hstanding
      simp [hblank.network, Network.empty, Network.standings] at hstanding
    · simp [hblank.network, Network.empty]
  rcases hfirst with rfl | hpublish
  · exact hconserves
  · have hblankLibrary : blank.HasLibraryPools :=
      hlibrary.congr (Cluster.settings_publish hpublish).symm
    obtain ⟨topology, -, -, rfl⟩ := Cluster.publish_eq_ok hpublish
    exact hconserves.openMissing hblankLibrary _

end Conserves

end EndpointPools

namespace Cluster

/-! ## After a shutdown -/

/-- No endpoint has a pool, and nothing is being refreshed. -/
structure Down (cluster : Cluster) : Prop where
  entries : cluster.pools.entries = []
  free : cluster.refreshes.busy = false

namespace Down

variable {cluster : Cluster} {others : List CallId} {result : Cluster × ClusterProgress}

theorem of_shutDown {call : CallId} (hresult : cluster.ShutDown call result)
    (hfree : cluster.refreshes.busy = false) : result.1.Down := by
  cases hresult with
  | quiet => exact ⟨by simp [EndpointPools.keeping], hfree⟩
  | closing => exact ⟨by simp [EndpointPools.keeping], hfree⟩

theorem attempted {call : CallId} {key : PartitionKey} (h : cluster.Down)
    (hresult : cluster.Attempted call key result) : result.1.Down := by
  cases hresult <;> exact ⟨h.entries, h.free⟩

/-- A cluster that was shut down stays so until the next refresh. -/
theorem performed {event : Event} (h : cluster.Down) (horderly : cluster.Orderly others 0)
    (hevent : event.isRefresh = false) (hresult : cluster.Performed event result) :
    result.1.Down := by
  have hlocked := horderly.locked
  rw [h.free] at hlocked
  simp only [Bool.toNat_false, Nat.add_zero, Nat.add_eq_zero_iff] at hlocked
  have hnew : cluster.newCall.2.Down := ⟨h.entries, h.free⟩
  cases hresult with
  | plan => exact ⟨h.entries, h.free⟩
  | connect hattempted => exact hnew.attempted hattempted
  | release hreleased => cases hreleased <;> exact ⟨h.entries, h.free⟩
  | queued => cases hevent
  | refresh => cases hevent
  | shutdown hshutDown => exact of_shutDown hshutDown h.free
  | answer hanswered =>
      cases hanswered with
      | ignored => exact h
      | turn hadmitted =>
          rw [hadmitted] at hlocked
          cases hlocked.2
      | waits => exact ⟨h.entries, h.free⟩
      | @ends network call purpose outcome _ hcompleted _ habsorbed =>
          have hset : (cluster.setNetwork network).Down := ⟨h.entries, h.free⟩
          cases habsorbed with
          | direct => exact hset
          | concluded => exact hset
          | replanned _ _ _ hattempted => exact hset.attempted hattempted
          | refresh hpurpose =>
              -- no call waits for the end of a refresh
              have hcount := hcompleted.countCalls horderly.numbered.callIds_nodup
                Purpose.isRefresh
              simp only at hpurpose
              subst hpurpose
              rw [hlocked.1] at hcount
              simp [Progress.finish, Purpose.isRefresh] at hcount

/-- Pools of a cluster that was shut down keep nothing. -/
theorem idle {leases : List Lease} (h : cluster.Down)
    (hconserves : cluster.pools.Conserves leases) : cluster.pools.network.idle = [] := by
  apply List.flatMap_eq_nil_iff.2
  intro pool hpool
  exact (hconserves.ledger.tidy pool hpool).quiet
    (hconserves.placed.disposed_of_entries_nil h.entries hpool)

end Down

end Cluster

namespace History

/-! ## Runs of events -/

/-- All places at which connections can be: kept by pools, held by leases, held by calls
that asked for them and have not ended, being closed, and closed. -/
def places (history : History) : List Connection :=
  history.cluster.pools.network.idle ++ history.leases.map Lease.connection ++
    history.cluster.pools.network.held ++ history.cluster.pools.network.parting ++
    history.cluster.pools.network.closed

/-- The balance of connections is kept in every run of events. -/
theorem conserves_run {history : History} (hlibrary : history.cluster.HasLibraryPools)
    (horderly : history.Orderly)
    (h : history.cluster.pools.Conserves history.leases) (events : List Event) :
    (history.run events).cluster.pools.Conserves (history.run events).leases := by
  refine run_invariant (fun later => later.cluster.pools.Conserves later.leases)
    (fun _ => True) ?_ horderly h (fun _ _ => trivial)
  intro later event _ hconserves hordered hsettings hpossible
  exact hconserves.performed (hlibrary.congr hsettings) hordered hpossible
    (later.cluster.performed event)

/-- A cluster that was shut down stays so in a run of events without a refresh. -/
theorem down_run {history : History} (horderly : history.Orderly)
    (h : history.cluster.Down) {events : List Event}
    (hevents : ∀ event ∈ events, event.isRefresh = false) :
    (history.run events).cluster.Down := by
  refine run_invariant (fun later => later.cluster.Down)
    (fun event => event.isRefresh = false) ?_ horderly h hevents
  intro later event hevent hdown hordered _ _
  exact hdown.performed hordered hevent (later.cluster.performed event)

/-- Of what is held for connect calls nothing is left once none of them waits. -/
theorem held_eq_nil {history : History}
    (h : history.cluster.pools.Conserves history.leases)
    (hconnects : ∀ call ∈ history.cluster.pools.network.calls,
      call.purpose.isConnect = false) : history.cluster.pools.network.held = [] := by
  apply List.flatMap_eq_nil_iff.2
  intro call hcall
  cases hwait : call.wait with
  | opening => rfl
  | closing => rfl
  | discarding id connection =>
      have hconnect := h.asked call hcall (by rw [hwait]; rfl)
      rw [hconnects call hcall] at hconnect
      cases hconnect

/-- Over the pools of the library, in every run of events: each connection that was opened
is in exactly one place; what a pool keeps leads to its endpoint, and each endpoint's pool
is one that leads there.  After a shutdown with no refresh under way or after it, once no
lease is left and no connect call waits, all that was opened is closed or being closed, and
closed once no call waits at all. -/
theorem connections_conserved {builder : ClusterBuilder} {entropy : Nat → Nat → UInt32}
    {cluster : Cluster} (hbuild : builder.build entropy = .ok cluster)
    (hlibrary : cluster.HasLibraryPools) (events : List Event) :
    let now := (start cluster).run events
    let network := now.cluster.pools.network
    network.opened.Perm now.places ∧ now.places.Nodup ∧
      (∀ pool ∈ network.pools, ∀ connection ∈ pool.idle,
        connection.endpoint = pool.endpoint) ∧
      (∀ endpoint id, now.cluster.pools.find? endpoint = some id →
        ∃ pool, network.pools[id]? = some pool ∧ pool.endpoint = endpoint) ∧
      ∀ before after, events = before ++ .shutdown :: after →
        ((start cluster).run before).cluster.refreshes.busy = false →
        (∀ event ∈ after, event.isRefresh = false) → now.leases = [] →
        (∀ call ∈ network.calls, call.purpose.isConnect = false) →
        network.opened.length = network.parting.length + network.closed.length ∧
          (network.calls = [] → network.closed.length = network.opened.length) := by
  intro now network
  have hstart : (start cluster).Orderly := orderly_start hbuild
  have hconserves : now.cluster.pools.Conserves now.leases :=
    conserves_run hlibrary hstart (.built hbuild hlibrary) events
  have hperm : network.opened.Perm now.places := hconserves.ledger.perm
  refine ⟨hperm, hperm.nodup_iff.1 hconserves.ledger.opened_nodup, ?_, ?_, ?_⟩
  · intro pool hpool
    exact (hconserves.ledger.tidy pool hpool).homed
  · intro endpoint id hfind
    obtain ⟨disposed, hstanding⟩ := hconserves.placed.exists_standing hfind
    obtain ⟨pool, hpool, hsite, -⟩ := Network.pool_of_standing hstanding
    exact ⟨pool, hpool, hsite⟩
  · intro before after hevents hfree hafter hleases hconnects
    have hordered : ((start cluster).run before).Orderly :=
      orderly_run hstart before
    have hdown : (((start cluster).run before).extend .shutdown).cluster.Down :=
      .of_shutDown (Cluster.shutDown _) hfree
    have hnow : now = (((start cluster).run before).extend .shutdown).run after := by
      simp only [now, hevents, run_append, run_cons]
      rfl
    have hend : now.cluster.Down := by
      rw [hnow]
      exact down_run (hordered.extend .shutdown) hdown hafter
    have hplaces : now.places = network.parting ++ network.closed := by
      have hidle : network.idle = [] := hend.idle hconserves
      have hheld : network.held = [] := held_eq_nil hconserves hconnects
      simp [places, hleases, network, hidle, hheld]
    have hlength := hperm.length_eq
    rw [hplaces, List.length_append] at hlength
    refine ⟨hlength, ?_⟩
    intro hcalls
    have hparting : network.parting = [] := by
      simp [Network.parting, hcalls]
    rw [hparting] at hlength
    simpa using hlength.symm

/-- A connection is lent, the cluster is shut down, and the lease is given back. -/
theorem connections_conserved_of_late_release : ∃ cluster events,
    (ClusterBuilder.unnamed [.numbered 1]).build (fun _ _ => 0) = .ok cluster ∧
      cluster.HasLibraryPools ∧
      ((start cluster).run events).cluster.pools.network.opened.length = 1 ∧
      ((start cluster).run events).cluster.pools.network.closed.length =
        ((start cluster).run events).cluster.pools.network.opened.length := by
  have hbuild := Eq.refl ((ClusterBuilder.unnamed [.numbered 1]).build fun _ _ => 0)
  have hlibrary : Activator.boundedPool = Activator.boundedPool ∨
      Activator.boundedPool = Activator.noReusePool := .inl rfl
  let site := (Peer.numbered 1).address
  let events := [Event.connect (.single (.int 1)), .answer (.opened 0), .shutdown,
    .release ⟨site, ⟨0, site⟩, 0⟩, .answer (.closed 2 ⟨0, site⟩)]
  refine ⟨_, events, hbuild, hlibrary, ?_, ?_⟩
  · decide +kernel
  · have hlaw := (connections_conserved hbuild hlibrary events).2.2.2.2
      [.connect (.single (.int 1)), .answer (.opened 0)]
      [.release ⟨site, ⟨0, site⟩, 0⟩, .answer (.closed 2 ⟨0, site⟩)] rfl
    refine (hlaw ?_ ?_ ?_ ?_).2 (List.eq_nil_of_length_eq_zero ?_)
    all_goals decide +kernel

end History
end RingRouting
