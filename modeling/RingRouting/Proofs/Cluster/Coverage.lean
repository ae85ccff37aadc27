import RingRouting.Proofs.Cluster.Order

/-!
# Every member of the view has a pool

Without a shutdown, each member of the published view has a pool that is not disposed.
A refresh makes the missing pools before it publishes a view, and disposes pools only
of endpoints that are no members of it; a refresh that fails half-way leaves pools over,
never too few.  The next refresh that succeeds takes out what was left over, so that then
exactly the members have pools.

Main results:

- Theorem `Cluster.Covered.performed`: every event but a shutdown keeps the members
  covered, and at the end of a refresh nothing else is.
- Theorem `History.Guarded.occur`: so does an exchange of the factories.
- Theorem `History.members_have_pools`: both laws over every run of events, also where factories
  answer otherwise from one event to the next.
-/

namespace RingRouting

/-- The step has ended a refresh that succeeded. -/
def ClusterProgress.EndsRefresh (progress : ClusterProgress) : Prop :=
  ∃ call, (call, Outcome.refreshed) ∈ progress.finished

/-- Pools are made undisposed. -/
def Factories.MakesFresh (factories : Factories) : Prop :=
  ∀ args pool, factories.pool args = .ok pool → pool.disposed = false

/-- Anything but a shutdown, with pools that are made undisposed. -/
def Occurrence.Permitted : Occurrence → Prop
  | .event next => next.isShutdown = false
  | .exchange factories => factories.MakesFresh

namespace Cluster

/-- Exactly the members of the view have pools. -/
def Exact (cluster : Cluster) : Prop :=
  ∀ endpoint, endpoint ∈ cluster.pools.endpoints ↔ endpoint ∈ cluster.topology.view.addresses

/-- The members of the view have pools that are not disposed; while connections are
being closed for a refresh, only they have pools. -/
structure Covered (cluster : Cluster) : Prop where
  sound : cluster.pools.Sound
  members : ∀ endpoint ∈ cluster.topology.view.addresses, endpoint ∈ cluster.pools.endpoints
  settled : 0 < cluster.pools.network.countCalls Purpose.isRefresh → cluster.Exact

/-- The pools of a cluster are made undisposed. -/
def MakesFresh (cluster : Cluster) : Prop :=
  ∀ args pool, cluster.pools.factory args = .ok pool → pool.disposed = false

/-- How pools are made is a matter of the settings. -/
theorem MakesFresh.congr {cluster after : Cluster} (h : cluster.MakesFresh)
    (hsettings : after.settings = cluster.settings) : after.MakesFresh := by
  have hfactory : after.pools.factory = cluster.pools.factory :=
    congrArg Settings.poolFactory hsettings
  unfold MakesFresh
  rw [hfactory]
  exact h

namespace Covered

variable {cluster after : Cluster} {call : CallId} {others : List CallId}
  {result : Cluster × ClusterProgress}

/-- Only the map, the standings, the view and the refreshes that wait matter. -/
theorem congr (h : cluster.Covered) (hentries : after.pools.entries = cluster.pools.entries)
    (hstandings : after.pools.network.standings = cluster.pools.network.standings)
    (htopology : after.topology = cluster.topology)
    (hcount : after.pools.network.countCalls Purpose.isRefresh ≤
      cluster.pools.network.countCalls Purpose.isRefresh) : after.Covered where
  sound := h.sound.congr hentries hstandings
  members := by
    simpa only [htopology, EndpointPools.endpoints, hentries] using h.members
  settled := by
    intro hpos
    have hexact := h.settled (Nat.lt_of_lt_of_le hpos hcount)
    unfold Exact at hexact ⊢
    simpa only [htopology, EndpointPools.endpoints, hentries] using hexact

theorem endRefresh (h : cluster.Covered) (outcome : Outcome) :
    (cluster.endRefresh call outcome).1.Covered := by
  obtain ⟨queue, requests, hend⟩ := cluster.endRefresh_eq call outcome
  rw [hend]
  exact h.congr rfl rfl rfl (Nat.le_refl _)

theorem attempted {key : PartitionKey} (h : cluster.Covered)
    (hresult : Attempted cluster call key result) : result.1.Covered := by
  have hstandings := hresult.standings
  cases hresult with
  | failed => exact h.congr rfl rfl rfl (Nat.le_refl _)
  | missing => exact h.congr rfl rfl rfl (Nat.le_refl _)
  | reused => exact h.congr rfl hstandings rfl (Nat.le_refl _)
  | opening =>
      refine h.congr rfl rfl rfl ?_
      simp only [setNetwork, Network.countCalls_suspend]
      exact Nat.le_refl _

theorem released {id : PoolId} {connection : Connection} (h : cluster.Covered)
    (hresult : Released cluster call id connection result) : result.1.Covered := by
  have hstandings := hresult.standings
  cases hresult with
  | missing => exact h
  | kept => exact h.congr rfl hstandings rfl (Nat.le_refl _)
  | closing =>
      refine h.congr rfl rfl rfl ?_
      simp only [setNetwork, Network.countCalls_suspend]
      exact Nat.le_refl _

/-- Pools that are made for another view, even if not all of them, leave the members
of this one covered. -/
theorem openMissing (h : cluster.Covered) (hfresh : cluster.MakesFresh)
    (hnone : cluster.pools.network.countCalls Purpose.isRefresh = 0) (view : ClusterView) :
    { cluster with pools := (cluster.pools.openMissing view).2 }.Covered where
  sound := h.sound.openMissingFor hfresh view.addresses
  members := by
    intro endpoint hendpoint
    exact EndpointPools.mem_endpoints_openMissingFor _ _ (h.members endpoint hendpoint)
  settled := by
    intro hpos
    have hpools := cluster.pools.network_openMissing view
    have hcount : (cluster.pools.openMissing view).2.network.countCalls Purpose.isRefresh =
        cluster.pools.network.countCalls Purpose.isRefresh := by
      rw [hpools]
      rfl
    have hpos' : 0 < (cluster.pools.openMissing view).2.network.countCalls
        Purpose.isRefresh := hpos
    omega

/-- Once all pools could be made and the others are taken out, a view is covered
exactly. -/
theorem withView {view : ClusterView} {topology : Topology} {purpose : Purpose}
    {outcome : Network Purpose × Progress Purpose} (h : cluster.Covered)
    (hfresh : cluster.MakesFresh) (hbuild : cluster.buildTopology view = .ok topology)
    (hopen : (cluster.pools.openMissing view).1 = .ok ())
    (hdisposed : (cluster.pools.openMissing view).2.network.Disposed call purpose
      ((cluster.pools.openMissing view).2.dropped (EndpointPools.isMember view)) outcome) :
    (cluster.withView view topology outcome.1).Covered ∧
      (cluster.withView view topology outcome.1).Exact := by
  obtain ⟨-, hview, -⟩ := buildTopology_eq_ok hbuild
  have hout := EndpointPools.takenOut_keeping hdisposed
  have hsound := h.sound.openMissingFor hfresh view.addresses
  have hexact : (cluster.withView view topology outcome.1).Exact := by
    intro endpoint
    have hkept : endpoint ∈ (cluster.withView view topology outcome.1).pools.endpoints ↔
        endpoint ∈ (cluster.pools.openMissing view).2.endpoints ∧
          EndpointPools.isMember view endpoint = true :=
      EndpointPools.mem_endpoints_keeping _ _ _ _
    have htopology : (cluster.withView view topology outcome.1).topology.view = view := hview
    rw [hkept, htopology, ClusterView.isMember_iff]
    constructor
    · exact fun hboth => hboth.2
    · exact fun hmember => ⟨EndpointPools.mem_endpoints_of_openMissingFor_ok hopen hmember,
        hmember⟩
  exact ⟨⟨hsound.takenOut hout, fun endpoint hmem => (hexact endpoint).2 hmem,
    fun _ => hexact⟩, hexact⟩

/-- A refresh that has its turn keeps the members covered; if it succeeds, nothing else
is. -/
theorem refreshed {view : ClusterView} (h : cluster.Covered) (hfresh : cluster.MakesFresh)
    (hnone : cluster.pools.network.countCalls Purpose.isRefresh = 0)
    (hresult : Refreshed cluster call view result) :
    result.1.Covered ∧ (result.2.EndsRefresh → result.1.Exact) := by
  cases hresult with
  | @refused e =>
      refine ⟨h.endRefresh _, ?_⟩
      rintro ⟨ended, hended⟩
      obtain ⟨queue, requests, hend⟩ := cluster.endRefresh_eq call (.unrefreshed e)
      simp [hend] at hended
  | @unopened e =>
      refine ⟨(h.openMissing hfresh hnone view).endRefresh _, ?_⟩
      rintro ⟨ended, hended⟩
      obtain ⟨queue, requests, hend⟩ :=
        { cluster with pools := (cluster.pools.openMissing view).2 }.endRefresh_eq call
          (.unrefreshed e)
      simp [hend] at hended
  | closing hbuild hopen hdisposed =>
      have hboth := h.withView hfresh hbuild hopen hdisposed
      exact ⟨hboth.1, fun _ => hboth.2⟩
  | published hbuild hopen hdisposed =>
      have hboth := h.withView hfresh hbuild hopen hdisposed
      obtain ⟨queue, requests, hend⟩ := Cluster.endRefresh_eq _ call .refreshed
      refine ⟨hboth.1.endRefresh _, fun _ => ?_⟩
      rw [hend]
      exact hboth.2

/-- An attempt to connect ends no refresh. -/
theorem attempted_not_endsRefresh {key : PartitionKey}
    (hresult : Attempted cluster call key result) : ¬ result.2.EndsRefresh := by
  rintro ⟨ended, hended⟩
  cases hresult <;> simp [ClusterProgress.finish, ClusterProgress.none] at hended

theorem absorbed {ended : Finished Purpose} (h : cluster.Covered)
    (hsettled : ended.purpose = .refresh → cluster.Exact)
    (hresult : Absorbed cluster ended result) :
    result.1.Covered ∧ (result.2.EndsRefresh → result.1.Exact) := by
  cases hresult with
  | direct =>
      refine ⟨h, ?_⟩
      rintro ⟨call, hcall⟩
      cases houtcome : ended.outcome <;>
        simp [ClusterProgress.finish, Outcome.ofPools, houtcome] at hcall
  | concluded =>
      refine ⟨h, ?_⟩
      rintro ⟨call, hcall⟩
      cases houtcome : ended.outcome <;>
        simp [ClusterProgress.finish, concludeConnect, houtcome] at hcall
  | replanned _ _ _ hattempted =>
      exact ⟨h.attempted hattempted,
        fun hends => absurd hends (attempted_not_endsRefresh hattempted)⟩
  | refresh hpurpose =>
      obtain ⟨queue, requests, hend⟩ := cluster.endRefresh_eq ended.call .refreshed
      refine ⟨h.endRefresh _, fun _ => ?_⟩
      rw [hend]
      exact hsettled hpurpose

/-- The transport's answers change no pool that has an entry, and only ends a refresh
whose view is covered exactly. -/
theorem completed {network : Network Purpose} {progress : Progress Purpose}
    (h : cluster.Covered) (horderly : cluster.Orderly others 0)
    (hcompleted : cluster.pools.network.Completed (network, progress)) :
    (cluster.setNetwork network).Covered ∧
      ∀ ended ∈ progress.finished, ended.purpose = .refresh → cluster.Exact := by
  have hcount := hcompleted.countCalls horderly.numbered.callIds_nodup Purpose.isRefresh
  have hle : network.countCalls Purpose.isRefresh ≤
      cluster.pools.network.countCalls Purpose.isRefresh := by
    rw [hcount]
    exact Nat.le_add_right _ _
  refine ⟨h.congr rfl hcompleted.standings rfl hle, ?_⟩
  intro ended hended hpurpose
  have hpos : 0 < progress.finished.countP fun ended => ended.purpose.isRefresh := by
    apply List.countP_pos_iff.2
    exact ⟨ended, hended, by rw [hpurpose]; rfl⟩
  apply h.settled
  rw [hcount]
  exact Nat.lt_of_lt_of_le hpos (Nat.le_add_left _ _)

theorem answered {completion : Completion} (h : cluster.Covered)
    (hfresh : cluster.MakesFresh) (horderly : cluster.Orderly others 0)
    (hresult : Answered cluster completion result) :
    result.1.Covered ∧ (result.2.EndsRefresh → result.1.Exact) := by
  cases hresult with
  | ignored =>
      refine ⟨h, ?_⟩
      rintro ⟨call, hcall⟩
      cases hcall
  | turn hadmitted _ hrefreshed =>
      have hlocked := horderly.locked
      have hbusy := Bool.toNat_le cluster.refreshes.busy
      rw [hadmitted] at hlocked
      simp only [Option.toList_some, List.length_singleton] at hlocked
      have hnone : cluster.pools.network.countCalls Purpose.isRefresh = 0 := by omega
      have hsame : (cluster.withQueue { cluster.refreshes with admitted := none }).Covered :=
        h.congr rfl rfl rfl (Nat.le_refl _)
      exact hsame.refreshed hfresh hnone hrefreshed
  | waits hcompleted =>
      refine ⟨(h.completed horderly hcompleted).1, ?_⟩
      rintro ⟨call, hcall⟩
      cases hcall
  | ends hcompleted _ habsorbed =>
      obtain ⟨hcovered, hsettled⟩ := h.completed horderly hcompleted
      exact hcovered.absorbed (hsettled _ List.mem_cons_self) habsorbed

/-- Every event but a shutdown keeps the members covered, and exactly they are covered
when a refresh has succeeded. -/
theorem performed {event : Event} (h : cluster.Covered) (hfresh : cluster.MakesFresh)
    (horderly : cluster.Orderly others 0) (hevent : event.isShutdown = false)
    (hresult : Performed cluster event result) :
    result.1.Covered ∧ (result.2.EndsRefresh → result.1.Exact) := by
  have hnew : cluster.newCall.2.Covered := h.congr rfl rfl rfl (Nat.le_refl _)
  cases hresult with
  | plan =>
      refine ⟨h.congr rfl rfl rfl (Nat.le_refl _), ?_⟩
      rintro ⟨call, hcall⟩
      cases hcall
  | connect hattempted =>
      exact ⟨hnew.attempted hattempted,
        fun hends => absurd hends (attempted_not_endsRefresh hattempted)⟩
  | release hreleased =>
      refine ⟨hnew.released hreleased, ?_⟩
      rintro ⟨call, hcall⟩
      cases hreleased <;> simp [ClusterProgress.finish, ClusterProgress.none] at hcall
  | queued =>
      refine ⟨h.congr rfl rfl rfl (Nat.le_refl _), ?_⟩
      rintro ⟨call, hcall⟩
      cases hcall
  | refresh hfree hrefreshed =>
      have hlocked := horderly.locked
      rw [hfree] at hlocked
      simp only [Bool.toNat_false] at hlocked
      have hnone : cluster.pools.network.countCalls Purpose.isRefresh = 0 := by omega
      have hsame : (cluster.newCall.2.withQueue
          { cluster.refreshes with busy := true }).Covered :=
        h.congr rfl rfl rfl (Nat.le_refl _)
      exact hsame.refreshed hfresh hnone hrefreshed
  | shutdown => cases hevent
  | answer hanswered => exact h.answered hfresh horderly hanswered

/-- A cluster that was built has pools for exactly the peers that were known. -/
theorem built {builder : ClusterBuilder} {entropy : Nat → Nat → UInt32}
    (hbuild : builder.build entropy = .ok cluster) (hfresh : cluster.MakesFresh) :
    cluster.Covered := by
  obtain ⟨-, blank, hblank, hfirst⟩ := ClusterBuilder.build_eq_ok hbuild
  have hcovered : blank.Covered := by
    refine ⟨.of_entries_nil hblank.entries, ?_, ?_⟩
    · simp [hblank.view, ClusterView.addresses]
    · simp [hblank.network, Network.countCalls, Network.empty]
  rcases hfirst with rfl | hpublish
  · exact hcovered
  · have hblankFresh : blank.MakesFresh := hfresh.congr (settings_publish hpublish).symm
    obtain ⟨topology, hbuilt, hopen, rfl⟩ := publish_eq_ok hpublish
    obtain ⟨-, hview, -⟩ := buildTopology_eq_ok hbuilt
    have hnone : blank.pools.network.countCalls Purpose.isRefresh = 0 := by
      simp [hblank.network, Network.countCalls, Network.empty]
    have hopened := hcovered.openMissing hblankFresh hnone (.ofReports builder.knownPeers)
    refine ⟨hopened.sound, ?_, ?_⟩
    · intro endpoint hendpoint
      rw [hview] at hendpoint
      exact EndpointPools.mem_endpoints_of_openMissingFor_ok hopen hendpoint
    · intro hpos
      have hpools := blank.pools.network_openMissing (.ofReports builder.knownPeers)
      simp only [Network.countCalls] at hpos hnone
      rw [hpools] at hpos
      simp only at hpos
      omega

end Covered

end Cluster

namespace History

/-! ## Runs of events -/

/-- The members are covered, pools are made undisposed, and the calls are in order. -/
structure Guarded (history : History) : Prop where
  covered : history.cluster.Covered
  fresh : history.cluster.MakesFresh
  orderly : history.Orderly

variable {history : History}

/-- An event but a shutdown keeps the members covered. -/
theorem Guarded.extend {event : Event} (h : history.Guarded) (hevent : event.isShutdown = false) :
    (history.extend event).Guarded where
  covered :=
    (h.covered.performed h.fresh h.orderly hevent (history.cluster.performed event)).1
  fresh := h.fresh.congr (history.cluster.performed event).settings
  orderly := h.orderly.extend event

/-- Whatever is permitted keeps the members covered: other factories find the pools as they
are. -/
theorem Guarded.occur {occurrence : Occurrence} (h : history.Guarded)
    (hpermitted : occurrence.Permitted) : (history.occur occurrence).Guarded := by
  cases occurrence with
  | event event =>
      rw [History.occur, step]
      split
      · exact h.extend hpermitted
      · exact h
  | exchange factories =>
      exact ⟨h.covered.congr rfl rfl rfl (Nat.le_refl _), hpermitted,
        Cluster.Orderly.congr h.orderly rfl rfl rfl⟩

/-- The members stay covered, whatever occurs that is permitted. -/
theorem Guarded.occurAll (h : history.Guarded) {occurrences : List Occurrence}
    (hpermitted : ∀ occurrence ∈ occurrences, occurrence.Permitted) :
    (history.occurAll occurrences).Guarded := by
  induction occurrences generalizing history with
  | nil => exact h
  | cons occurrence rest ih =>
      exact ih (h.occur (hpermitted occurrence List.mem_cons_self))
        fun later hlater => hpermitted later (List.mem_cons_of_mem _ hlater)

/-- Every member of the published view has a pool that is not disposed; and if an event but a
shutdown ends a refresh that succeeds, exactly the members have pools after it. -/
def MembersHavePools (now : History) : Prop :=
  (∀ endpoint ∈ now.cluster.topology.view.addresses, ∃ id pool,
    now.cluster.pools.find? endpoint = some id ∧
      now.cluster.pools.pool? id = some pool ∧ pool.disposed = false) ∧
  ∀ event, event.isShutdown = false →
    (now.cluster.perform event).2.EndsRefresh →
      (now.cluster.perform event).1.pools.endpoints.Perm
        (now.cluster.perform event).1.topology.view.addresses

theorem Guarded.membersHavePools (h : history.Guarded) : history.MembersHavePools := by
  constructor
  · intro endpoint hendpoint
    exact h.covered.sound.exists_pool (h.covered.members endpoint hendpoint)
  · intro event hevent hends
    obtain ⟨hafter, hexact⟩ :=
      h.covered.performed h.fresh h.orderly hevent (history.cluster.performed event)
    have hnodup := (history.cluster.perform event).1.topology.view.addresses_nodup
    exact (List.perm_ext_iff_of_nodup hafter.sound.endpoints_nodup hnodup).2 (hexact hends)

/-- Whatever happens to a cluster but a shutdown, and however its policies behave, as long as
pools are made undisposed: every member of the published view has a pool that is not disposed, and
at the end of a refresh that succeeds exactly the members have pools, also if refreshes before it
failed half-way.  The factories need not answer alike each time: they may refuse now what they make
later. -/
theorem members_have_pools {builder : ClusterBuilder} {entropy : Nat → Nat → UInt32}
    {cluster : Cluster} (hbuild : builder.build entropy = .ok cluster)
    (hfresh : cluster.MakesFresh) :
    (∀ events : List Event, (∀ event ∈ events, event.isShutdown = false) →
      ((start cluster).run events).MembersHavePools) ∧
    ∀ occurrences : List Occurrence, (∀ occurrence ∈ occurrences, occurrence.Permitted) →
      ((start cluster).occurAll occurrences).MembersHavePools := by
  have hbegin : (start cluster).Guarded := ⟨.built hbuild hfresh, hfresh, orderly_start hbuild⟩
  have hall : ∀ occurrences : List Occurrence,
      (∀ occurrence ∈ occurrences, occurrence.Permitted) →
        ((start cluster).occurAll occurrences).MembersHavePools :=
    fun _ hpermitted => (hbegin.occurAll hpermitted).membersHavePools
  refine ⟨fun events hevents => ?_, hall⟩
  rw [← occurAll_events]
  exact hall _ (List.forall_mem_map.2 hevents)

/-- A node leaves and comes back while a call connects.  The pool of the node that joins instead
is refused at first and made later. -/
theorem members_have_pools_of_moving_node : ∃ cluster occurrences now,
    (ClusterBuilder.unnamed [.numbered 1]).build (fun _ _ => 0) = .ok cluster ∧
      cluster.MakesFresh ∧ (∀ occurrence ∈ occurrences, occurrence.Permitted) ∧
      now = (start cluster).occurAll occurrences ∧
      now.ended = [(1, .unrefreshed (.missingArgument "BoundedPool" "a free port")),
        (2, .refreshed), (3, .refreshed)] ∧
      now.cluster.topology.view.addresses = [(Peer.numbered 1).address] ∧
      ∀ endpoint ∈ now.cluster.topology.view.addresses,
        ∃ id pool, now.cluster.pools.find? endpoint = some id ∧
          now.cluster.pools.pool? id = some pool ∧ pool.disposed = false := by
  let refusing : Factories :=
    ⟨none, none, fun _ => .error (.missingArgument "BoundedPool" "a free port")⟩
  let usual : Factories := ⟨none, none, Activator.boundedPool⟩
  let occurrences : List Occurrence := [.event (.connect (.single (.int 1))), .exchange refusing,
    .event (.refresh [.numbered 2]), .exchange usual, .event (.refresh [.numbered 2]),
    .event (.answer (.opened 0)), .event (.refresh [.numbered 1])]
  have hfresh : usual.MakesFresh := by
    rintro args pool hpool
    cases hpool
    rfl
  have hpermitted : ∀ occurrence ∈ occurrences, occurrence.Permitted := by
    have hrefusing : refusing.MakesFresh := by
      rintro args pool hpool
      cases hpool
    simp [occurrences, Occurrence.Permitted, Event.isShutdown, hfresh, hrefusing]
  have hbuild := Eq.refl ((ClusterBuilder.unnamed [.numbered 1]).build fun _ _ => 0)
  refine ⟨_, occurrences, _, hbuild, hfresh, hpermitted, rfl, ?_, ?_,
    ((members_have_pools hbuild hfresh).2 occurrences hpermitted).1⟩
  all_goals decide +kernel

end History
end RingRouting
