import RingRouting.Policy.Custom
import RingRouting.Proofs.Cluster.Settings
import RingRouting.Proofs.Network.Opening

/-!
# Refreshes that fail

A refresh fails because the snitch for the view cannot be made, or because the pool of a new
member cannot be made.  Either way the view stays unpublished, and whoever had a pool keeps it
as it is.  Nothing is undone, however: where a pool cannot be made, the new members before it
have got theirs.

Main results:

- Theorem `Cluster.Refreshed.failed`: what a refresh has done when it fails.
- Theorem `Cluster.failed_refresh_opens_pools`: a failed refresh may leave new pools.
- Theorem `Cluster.failed_refresh_keeps`: what else there was stays as it was.
-/

namespace RingRouting
namespace Cluster

/-! ## Views that are not published -/

/-- Why the view of a refresh was not published, and what the refresh has done before. -/
inductive Unpublished (cluster after : Cluster) (view : ClusterView) :
    ConfigurationError → Prop where
  /-- The snitch cannot be made; nothing was done. -/
  | snitch {factory : Factory SnitchArgs Snitch} {e : ConfigurationError}
      (hfactory : cluster.snitchFactory = some factory)
      (hrefused : factory ⟨some view⟩ = .error e)
      (hentries : after.pools.entries = cluster.pools.entries)
      (hpools : after.pools.network.pools = cluster.pools.network.pools) :
      Unpublished cluster after view e
  /-- The snitch can be made, but a pool cannot; the members before it have got theirs. -/
  | pool {opened rest : List Address} {refused : Address} {made : List Pool}
      {e : ConfigurationError}
      (hsnitch : ∀ factory, cluster.snitchFactory = some factory →
        ∃ snitch, factory ⟨some view⟩ = .ok snitch)
      (hlacking : cluster.pools.lacking view.addresses = opened ++ refused :: rest)
      (hmade : List.Forall₂ cluster.pools.Makes opened made)
      (hrefused : cluster.pools.factory ⟨refused, cluster.pools.capacity⟩ = .error e)
      (hentries : after.pools.entries =
        cluster.pools.entries ++ opened.zipIdx cluster.pools.network.pools.length)
      (hpools : after.pools.network.pools = cluster.pools.network.pools ++ made) :
      Unpublished cluster after view e

variable {cluster after : Cluster} {call ended : CallId} {view : ClusterView}
  {e : ConfigurationError} {result : Cluster × ClusterProgress}

theorem buildTopology_eq_error (h : cluster.buildTopology view = .error e) :
    ∃ factory, cluster.snitchFactory = some factory ∧ factory ⟨some view⟩ = .error e := by
  unfold buildTopology at h
  cases hfactory : cluster.snitchFactory with
  | none =>
      rw [hfactory] at h
      cases h
  | some factory =>
      simp only [hfactory] at h
      cases hsnitch : factory ⟨some view⟩ with
      | error cause =>
          rw [hsnitch] at h
          cases h
          exact ⟨factory, rfl, hsnitch⟩
      | ok snitch =>
          rw [hsnitch] at h
          cases h

theorem snitch_of_buildTopology_eq_ok {topology : Topology}
    (h : cluster.buildTopology view = .ok topology) {factory : Factory SnitchArgs Snitch}
    (hfactory : cluster.snitchFactory = some factory) :
    ∃ snitch, factory ⟨some view⟩ = .ok snitch := by
  obtain ⟨-, rfl, hbuilt⟩ := buildTopology_eq_ok h
  rw [SnitchBuilt, hfactory] at hbuilt
  exact hbuilt.imp fun _ hsnitch => hsnitch.1

/-- Where a view was not published, whoever had a pool has the same one. -/
theorem Unpublished.find? (h : Unpublished cluster after view e) {endpoint : Address}
    {id : PoolId} (hfind : cluster.pools.find? endpoint = some id) :
    after.pools.find? endpoint = some id := by
  cases h with
  | snitch _ _ hentries => rwa [EndpointPools.find?, hentries]
  | pool _ _ _ _ hentries =>
      rw [EndpointPools.find?, hentries]
      exact EndpointPools.find?_grown hfind _ []

/-- Where a view was not published, every pool is as it was. -/
theorem Unpublished.pool? (h : Unpublished cluster after view e) {id : PoolId} {pool : Pool}
    (hpool : cluster.pools.pool? id = some pool) : after.pools.pool? id = some pool := by
  cases h with
  | snitch _ _ _ hpools => rwa [EndpointPools.pool?, hpools]
  | pool _ _ _ _ _ hpools =>
      rw [EndpointPools.pool?, hpools]
      exact EndpointPools.pool?_grown hpool [] _

/-- Only the settings and the pools matter. -/
theorem Unpublished.congr {begun : Cluster} (h : Unpublished begun after view e)
    (hsettings : begun.settings = cluster.settings)
    (hentries : begun.pools.entries = cluster.pools.entries)
    (hpools : begun.pools.network.pools = cluster.pools.network.pools) :
    Unpublished cluster after view e := by
  have hsnitch : begun.snitchFactory = cluster.snitchFactory :=
    congrArg Settings.snitchFactory hsettings
  have hfactory : begun.pools.factory = cluster.pools.factory :=
    congrArg Settings.poolFactory hsettings
  have hcapacity : begun.pools.capacity = cluster.pools.capacity :=
    congrArg Settings.poolCapacity hsettings
  have hmakes : begun.pools.Makes = cluster.pools.Makes := by
    unfold EndpointPools.Makes
    rw [hfactory, hcapacity]
  have hlacks : begun.pools.lacking = cluster.pools.lacking := by
    unfold EndpointPools.lacking EndpointPools.find?
    rw [hentries]
  cases h with
  | snitch hsome hrefused hafter hkept =>
      exact .snitch (hsnitch ▸ hsome) hrefused (hentries ▸ hafter) (hpools ▸ hkept)
  | pool hmaking hlacking hmade hrefused hafter hkept =>
      rw [hsnitch] at hmaking
      rw [hlacks] at hlacking
      rw [hmakes] at hmade
      rw [hfactory, hcapacity] at hrefused
      rw [hentries, hpools] at hafter
      rw [hpools] at hkept
      exact .pool hmaking hlacking hmade hrefused hafter hkept

/-! ## Refreshes -/

/-- A refresh that fails ends its own call, leaves the topology alone, and has made pools for
the new members before the first whose pool cannot be made. -/
theorem Refreshed.failed (h : Refreshed cluster call view result)
    (hfailed : (ended, Outcome.unrefreshed e) ∈ result.2.finished) :
    ended = call ∧ result.1.topology = cluster.topology ∧
      Unpublished cluster result.1 view e := by
  cases h with
  | @refused cause hbuild =>
      obtain ⟨queue, requests, hend⟩ := cluster.endRefresh_eq call (.unrefreshed cause)
      rw [hend] at hfailed ⊢
      cases List.mem_singleton.1 hfailed
      obtain ⟨factory, hfactory, hrefused⟩ := buildTopology_eq_error hbuild
      exact ⟨rfl, rfl, .snitch hfactory hrefused rfl rfl⟩
  | @unopened cause _ hbuild hopen =>
      obtain ⟨queue, requests, hend⟩ := endRefresh_eq
        { cluster with pools := (cluster.pools.openMissing view).2 } call (.unrefreshed cause)
      rw [hend] at hfailed ⊢
      cases List.mem_singleton.1 hfailed
      refine ⟨rfl, rfl, ?_⟩
      have hopened := EndpointPools.openedFor view.addresses_nodup cluster.pools
      change cluster.pools.OpenedFor _ (cluster.pools.openMissing view) at hopened
      generalize hlacking : cluster.pools.lacking (view.peers.map Peer.address) = lacking
        at hopened
      generalize cluster.pools.openMissing view = outcome at hopened hopen
      cases hopened with
      | all => cases hopen
      | refused hmade hrefused =>
          cases hopen
          exact .pool (fun _ hfactory => snitch_of_buildTopology_eq_ok hbuild hfactory) hlacking
            hmade hrefused rfl rfl
  | closing => cases hfailed
  | @published topology network =>
      obtain ⟨queue, requests, hend⟩ :=
        (cluster.withView view topology network).endRefresh_eq call .refreshed
      rw [hend] at hfailed
      cases List.mem_singleton.1 hfailed

/-- An attempt to connect fails no refresh. -/
theorem Attempted.not_unrefreshed {key : PartitionKey} (h : Attempted cluster call key result) :
    (ended, Outcome.unrefreshed e) ∉ result.2.finished := by
  cases h <;> simp [ClusterProgress.finish, ClusterProgress.none]

/-- The end of a call on the pools fails no refresh. -/
theorem Absorbed.not_unrefreshed {finished : Finished Purpose}
    (h : Absorbed cluster finished result) :
    (ended, Outcome.unrefreshed e) ∉ result.2.finished := by
  cases h with
  | direct =>
      cases houtcome : finished.outcome <;>
        simp [ClusterProgress.finish, Outcome.ofPools]
  | concluded =>
      cases houtcome : finished.outcome <;>
        simp [ClusterProgress.finish, concludeConnect]
  | replanned _ _ _ hattempted => exact hattempted.not_unrefreshed
  | refresh =>
      obtain ⟨queue, requests, hend⟩ := cluster.endRefresh_eq finished.call .refreshed
      rw [hend]
      simp

/-! ## Events -/

/-- The refresh that an event takes up, with the view that it is for: one that is called while
no other is under way, or one that has waited and has its turn. -/
inductive TakesUp (cluster : Cluster) : Event → CallId → ClusterView → Prop where
  | called {reports : List Peer} (hfree : cluster.refreshes.busy = false) :
      TakesUp cluster (.refresh reports) cluster.newCall.1 (.ofReports reports)
  | turned {call : CallId} {view : ClusterView}
      (hadmitted : cluster.refreshes.admitted = some (call, view)) :
      TakesUp cluster (.answer (.turn call)) call view

/-- A refresh fails in the event that takes it up. -/
theorem Performed.failed {event : Event} (h : Performed cluster event result)
    (hfailed : (ended, Outcome.unrefreshed e) ∈ result.2.finished) :
    result.1.topology = cluster.topology ∧
      ∃ view, cluster.TakesUp event ended view ∧ Unpublished cluster result.1 view e := by
  cases h with
  | plan => cases hfailed
  | queued => cases hfailed
  | connect hattempted => exact absurd hfailed hattempted.not_unrefreshed
  | release hreleased =>
      cases hreleased <;> simp [ClusterProgress.finish, ClusterProgress.none] at hfailed
  | shutdown hshutDown => cases hshutDown <;> simp [ClusterProgress.finish] at hfailed
  | refresh hfree hrefreshed =>
      obtain ⟨rfl, htopology, hunpublished⟩ := hrefreshed.failed hfailed
      exact ⟨htopology, _, .called hfree, hunpublished.congr rfl rfl rfl⟩
  | answer hanswered =>
      cases hanswered with
      | ignored => cases hfailed
      | waits => cases hfailed
      | turn hadmitted hturn hrefreshed =>
          obtain ⟨rfl, htopology, hunpublished⟩ := hrefreshed.failed hfailed
          subst hturn
          exact ⟨htopology, _, .turned hadmitted, hunpublished.congr rfl rfl rfl⟩
      | ends _ _ habsorbed => exact absurd hfailed habsorbed.not_unrefreshed

end Cluster

/-! ## A factory that refuses -/

/-- A builder that names a pool policy which refuses the endpoints of some peers. -/
def ClusterBuilder.picky (known refused : List Peer) : ClusterBuilder :=
  let unnamed := ClusterBuilder.unnamed known
  { unnamed with
    config := { unnamed.config with pool := ⟨"Picky", 1⟩ }
    activator := CustomPolicy.register .defaults "Picky"
      (.refusingPool (refused.map Peer.address)) }

namespace Cluster

/-- A refresh fails because the pool of the second peer cannot be made, and the first peer,
which is no member of the view, has got a pool that it did not have. -/
theorem failed_refresh_opens_pools : ∃ cluster e,
    (ClusterBuilder.picky [] [.numbered 2]).build (fun _ _ => 0) = .ok cluster ∧
      let after := cluster.perform (.refresh [.numbered 1, .numbered 2])
      (cluster.newCall.1, Outcome.unrefreshed e) ∈ after.2.finished ∧
        cluster.pools.endpoints = [] ∧
        after.1.pools.endpoints = [(Peer.numbered 1).address] := by
  have hbuild := Eq.refl ((ClusterBuilder.picky [] [.numbered 2]).build fun _ _ => 0)
  refine ⟨_, .missingArgument "Picky" "an acceptable endpoint", hbuild, ?_⟩
  decide +kernel

/-- Whatever state a cluster is in, and however its policies behave: when a refresh fails, the
topology is the one before, that is the view, the snitch and their version; every endpoint
that had a pool has the same pool, and every pool is as it was, with the connections it keeps
and its mark.  The snitch for the view could not be made, and then no pool was made either; or
the new members of the view, in its order, have got pools up to the first one whose pool could
not be made.  A refresh that has to wait for its turn changes none of this before it. -/
theorem failed_refresh_keeps (cluster : Cluster) :
    (∀ reports, cluster.refreshes.busy = true →
      let called := cluster.perform (.refresh reports)
      called.2.finished = [] ∧ called.1.topology = cluster.topology ∧
        called.1.pools.entries = cluster.pools.entries ∧
        called.1.pools.network.pools = cluster.pools.network.pools) ∧
      ∀ event call e, (call, Outcome.unrefreshed e) ∈ (cluster.perform event).2.finished →
        let after := (cluster.perform event).1
        after.topology = cluster.topology ∧
          (∀ endpoint id, cluster.pools.find? endpoint = some id →
            after.pools.find? endpoint = some id) ∧
          (∀ id pool, cluster.pools.pool? id = some pool →
            after.pools.pool? id = some pool) ∧
          ∃ view, cluster.TakesUp event call view ∧ cluster.Unpublished after view e := by
  constructor
  · intro reports hbusy
    have hperformed := cluster.performed (.refresh reports)
    generalize cluster.perform (.refresh reports) = result at hperformed
    cases hperformed with
    | queued => exact ⟨rfl, rfl, rfl, rfl⟩
    | refresh hfree =>
        rw [hbusy] at hfree
        cases hfree
  · intro event call e hfailed
    obtain ⟨htopology, view, htakes, hunpublished⟩ :=
      (cluster.performed event).failed hfailed
    exact ⟨htopology, fun _ _ => hunpublished.find?, fun _ _ => hunpublished.pool?, view,
      htakes, hunpublished⟩

/-- A refresh waits until the connection of a node that left is closed.  Then it fails at the
pool of its last peer; the member that there is keeps its pool. -/
theorem failed_refresh_keeps_of_waiting_call : ∃ cluster e,
    (ClusterBuilder.picky [.numbered 1] [.numbered 2]).build (fun _ _ => 0) = .ok cluster ∧
      let connection : Connection := ⟨0, (Peer.numbered 1).address⟩
      let reports : List Peer := [.numbered 3, .numbered 4, .numbered 2]
      let leaving : List Event := [.connect (.single (.int 1)), .answer (.opened 0),
        .release ⟨(Peer.numbered 1).address, connection, 0⟩, .refresh [.numbered 3]]
      let begun := ((History.start cluster).run leaving).cluster
      let waited := ((History.start cluster).run
        (leaving ++ [.refresh reports, .answer (.closed 2 connection)])).cluster
      let after := waited.perform (.answer (.turn 3))
      begun.refreshes.busy = true ∧
        (begun.perform (.refresh reports)).1.topology = begun.topology ∧
        (3, Outcome.unrefreshed e) ∈ after.2.finished ∧
        after.1.topology = waited.topology ∧
        after.1.pools.find? (Peer.numbered 3).address = some 1 ∧
        after.1.pools.pool? 1 = some (.bounded (Peer.numbered 3).address 1) := by
  have hcourse : ((ClusterBuilder.picky [.numbered 1] [.numbered 2]).build fun _ _ => 0).map
      (fun cluster =>
        let connection : Connection := ⟨0, (Peer.numbered 1).address⟩
        let leaving : List Event := [.connect (.single (.int 1)), .answer (.opened 0),
          .release ⟨(Peer.numbered 1).address, connection, 0⟩, .refresh [.numbered 3]]
        let begun := ((History.start cluster).run leaving).cluster
        let waited := ((History.start cluster).run (leaving ++
          [.refresh [.numbered 3, .numbered 4, .numbered 2],
            .answer (.closed 2 connection)])).cluster
        (begun.refreshes.busy, (waited.perform (.answer (.turn 3))).2.finished,
          waited.pools.find? (Peer.numbered 3).address, waited.pools.pool? 1)) =
      .ok (true, [(3, .unrefreshed (.missingArgument "Picky" "an acceptable endpoint"))],
        some 1, some (.bounded (Peer.numbered 3).address 1)) := by
    decide +kernel
  obtain ⟨cluster, hbuild, hfacts⟩ := Except.map_eq_ok hcourse
  refine ⟨cluster, .missingArgument "Picky" "an acceptable endpoint", hbuild, ?_⟩
  intro connection reports leaving begun waited after
  obtain ⟨hbusy, hfinished, hfind, hpool⟩ : begun.refreshes.busy = true ∧
      after.2.finished =
        [(3, .unrefreshed (.missingArgument "Picky" "an acceptable endpoint"))] ∧
      waited.pools.find? (Peer.numbered 3).address = some 1 ∧
      waited.pools.pool? 1 = some (.bounded (Peer.numbered 3).address 1) := by
    simpa only [Prod.mk.injEq] using hfacts
  clear_value begun waited
  have hcalled := (failed_refresh_keeps begun).1 reports hbusy
  have hfailed := hfinished ▸ List.mem_singleton_self _
  have hkept := (failed_refresh_keeps waited).2 _ _ _ hfailed
  exact ⟨hbusy, hcalled.2.1, hfailed, hkept.1, hkept.2.1 _ _ hfind, hkept.2.2.1 _ _ hpool⟩

end Cluster
end RingRouting
