import RingRouting.Proofs.Cluster.Order

/-!
# What only grows

Calls get ever higher numbers, connections that were opened stay on record, and the version
goes up with each view that is published.  A connect call begins an attempt in the view that
is current then: when it is made, and whenever its pool is gone with its view.

Main results:

- Theorem `Cluster.Performed.extends`: no event takes anything back.
- Theorem `Cluster.Performed.version`: the version counts the views that are published.
- Theorem `Cluster.of_mem_attemptsBy`: which attempts an event can begin.
- Theorem `History.growth_run`: what runs of events add.
-/

namespace RingRouting

/-! ## What only grows -/

namespace Network

/-- Calls get ever higher numbers, and what was opened stays on record. -/
structure Extends (after network : Network Purpose) : Prop where
  nextCall : network.nextCall ≤ after.nextCall
  opened : ∀ connection ∈ network.opened, connection ∈ after.opened

variable {network after later : Network Purpose}

theorem Extends.of_eq (hnext : after.nextCall = network.nextCall)
    (hopened : after.opened = network.opened) : after.Extends network :=
  ⟨Nat.le_of_eq hnext.symm, fun _ h => hopened ▸ h⟩

theorem Extends.trans (hlater : later.Extends after) (h : after.Extends network) :
    later.Extends network :=
  ⟨Nat.le_trans h.nextCall hlater.nextCall,
    fun connection hmem => hlater.opened connection (h.opened connection hmem)⟩

theorem Extends.newCall (network : Network Purpose) : network.newCall.2.Extends network :=
  ⟨Nat.le_succ _, fun _ h => h⟩

theorem Completed.extends {result : Network Purpose × Progress Purpose}
    (h : network.Completed result) : result.1.Extends network := by
  cases h with
  | ignored => exact .of_eq rfl rfl
  | lent => exact ⟨Nat.le_refl _, fun _ hmem => List.mem_append_left _ hmem⟩
  | late => exact ⟨Nat.le_refl _, fun _ hmem => List.mem_append_left _ hmem⟩
  | unreachable => exact .of_eq rfl rfl
  | discarded => exact .of_eq rfl rfl
  | lastClosed => exact .of_eq rfl rfl
  | oneClosed => exact .of_eq rfl rfl

theorem Disposed.extends {call : CallId} {purpose : Purpose} {ids : List PoolId}
    {result : Network Purpose × Progress Purpose}
    (h : network.Disposed call purpose ids result) : result.1.Extends network := by
  have hnext : (network.disposePools ids).2.nextCall = network.nextCall := by
    rw [disposePools_eq]
  have hopened : (network.disposePools ids).2.opened = network.opened := by
    rw [disposePools_eq]
  cases h with
  | quiet => exact .of_eq hnext hopened
  | closing => exact .of_eq hnext hopened

end Network

namespace Cluster

variable {cluster : Cluster} {call : CallId} {key : PartitionKey}
  {result : Cluster × ClusterProgress}

theorem extends_openMissing (cluster : Cluster) (view : ClusterView) :
    (cluster.pools.openMissing view).2.network.Extends cluster.pools.network := by
  rw [cluster.pools.network_openMissing view]
  exact .of_eq rfl rfl

theorem extends_endRefresh (cluster : Cluster) (call : CallId) (outcome : Outcome) :
    (cluster.endRefresh call outcome).1.pools.network.Extends cluster.pools.network := by
  rcases cluster.endRefresh_eq call outcome with ⟨queue, requests, hend⟩
  rw [hend]
  exact .of_eq rfl rfl

theorem Attempted.extends (h : Attempted cluster call key result) :
    result.1.pools.network.Extends cluster.pools.network := by
  cases h <;> exact .of_eq rfl rfl

theorem Released.extends {id : PoolId} {connection : Connection}
    (h : Released cluster call id connection result) :
    result.1.pools.network.Extends cluster.pools.network := by
  cases h <;> exact .of_eq rfl rfl

theorem Refreshed.extends {view : ClusterView} (h : Refreshed cluster call view result) :
    result.1.pools.network.Extends cluster.pools.network := by
  have hopened := cluster.extends_openMissing view
  cases h with
  | refused => exact cluster.extends_endRefresh _ _
  | unopened => exact (extends_endRefresh _ _ _).trans hopened
  | closing _ _ hdisposed => exact hdisposed.extends.trans hopened
  | published _ _ hdisposed =>
      exact (extends_endRefresh _ _ _).trans (hdisposed.extends.trans hopened)

theorem ShutDown.extends (h : ShutDown cluster call result) :
    result.1.pools.network.Extends cluster.pools.network := by
  cases h with
  | quiet hdisposed => exact hdisposed.extends
  | closing hdisposed => exact hdisposed.extends

theorem Absorbed.extends {ended : Finished Purpose} (h : Absorbed cluster ended result) :
    result.1.pools.network.Extends cluster.pools.network := by
  cases h with
  | direct => exact .of_eq rfl rfl
  | concluded => exact .of_eq rfl rfl
  | replanned _ _ _ hattempted => exact hattempted.extends
  | refresh => exact cluster.extends_endRefresh _ _

/-- No event takes back a number or forgets what was opened. -/
theorem Performed.extends {event : Event} (h : Performed cluster event result) :
    result.1.pools.network.Extends cluster.pools.network := by
  have hnew := Network.Extends.newCall cluster.pools.network
  cases h with
  | plan => exact .of_eq rfl rfl
  | connect hattempted => exact hattempted.extends.trans hnew
  | release hreleased => exact hreleased.extends.trans hnew
  | queued => exact hnew
  | refresh _ hrefreshed => exact hrefreshed.extends.trans hnew
  | shutdown hshutDown => exact hshutDown.extends.trans hnew
  | answer hanswered =>
      cases hanswered with
      | ignored => exact .of_eq rfl rfl
      | turn _ _ hrefreshed => exact hrefreshed.extends
      | waits hcompleted => exact hcompleted.extends
      | ends hcompleted _ habsorbed => exact habsorbed.extends.trans hcompleted.extends

/-- The version of the view goes up by one when a view is published, and stays the same
otherwise. -/
theorem Performed.version {event : Event} (h : Performed cluster event result) :
    result.1.topology.version =
      cluster.topology.version + (History.publishedBy cluster result.1).length := by
  unfold History.publishedBy
  rcases h.topology with hsame | ⟨view, hbuild⟩
  · rw [if_pos (by rw [hsame]), hsame]
    rfl
  · rcases buildTopology_eq_ok hbuild with ⟨hversion, -, -⟩
    rw [if_neg (by omega), hversion]
    rfl

/-! ## Attempts that begin -/

/-- The attempt that follows the end of a call on the pools. -/
theorem attemptsBy_of_ends {completion : Completion} {network : Network Purpose}
    {purpose : Purpose} {outcome : PoolOutcome}
    (hresult : cluster.pools.network.complete completion =
      (network, .finish call purpose outcome)) :
    cluster.attemptsBy (.answer completion) =
      (cluster.attemptAfter ⟨call, purpose, outcome⟩).toList := by
  simp only [attemptsBy, hresult, Progress.finish, List.filterMap_cons, List.filterMap_nil]
  cases cluster.attemptAfter ⟨call, purpose, outcome⟩ <;> rfl

/-- A call is tried again because its pool is gone, in the current view. -/
theorem attemptAfter_eq_some {ended : Finished Purpose} {attempt : Attempt}
    (h : cluster.attemptAfter ended = some attempt) :
    ∃ version endpoint e, ended.purpose = .connect attempt.key version endpoint ∧
      ended.outcome = .failed e ∧ cluster.replans version e = true ∧
      attempt = ⟨ended.call, attempt.key, cluster.topology⟩ := by
  unfold attemptAfter at h
  split at h
  · rename_i key version endpoint e hpurpose houtcome
    split at h
    · rename_i hgone
      cases h
      exact ⟨version, endpoint, e, hpurpose, houtcome, hgone, rfl⟩
    · cases h
  · cases h

/-- An attempt that an answer brings about: the call that it is for has ended on the pools
because its pool is gone, and so is the view in which the pool was found. -/
theorem of_mem_attemptsBy_answer {completion : Completion} {attempt : Attempt}
    (h : attempt ∈ cluster.attemptsBy (.answer completion)) :
    attempt.topology = cluster.topology ∧ ∃ network version endpoint e,
      cluster.pools.network.Completed (network,
        .finish attempt.call (.connect attempt.key version endpoint) (.failed e)) ∧
      cluster.replans version e = true := by
  rcases List.mem_filterMap.1 h with ⟨ended, hended, hretry⟩
  rcases attemptAfter_eq_some hretry with
    ⟨version, endpoint, e, hpurpose, houtcome, hgone, hattempt⟩
  have hcompleted := cluster.pools.network.completed completion
  generalize cluster.pools.network.complete completion = answer at hcompleted hended
  rcases answer with ⟨network, progress⟩
  have hfinish : progress = .finish ended.call ended.purpose ended.outcome :=
    hcompleted.eq_finish hended
  have hcall : attempt.call = ended.call := by rw [hattempt]
  rw [hfinish, hpurpose, houtcome, ← hcall] at hcompleted
  exact ⟨by rw [hattempt], network, version, endpoint, e, hcompleted, hgone⟩

/-- An attempt begins in the current view, for a new call or for one that waited. -/
theorem of_mem_attemptsBy {event : Event} {attempt : Attempt}
    (h : attempt ∈ cluster.attemptsBy event) :
    attempt.topology = cluster.topology ∧
      (event = .connect attempt.key ∧ attempt.call = cluster.pools.network.nextCall ∨
        attempt.call ∈ cluster.pools.network.callIds) := by
  cases event with
  | plan => cases h
  | release => cases h
  | refresh => cases h
  | shutdown => cases h
  | connect key =>
      rw [List.mem_singleton.1 h]
      exact ⟨rfl, .inl ⟨rfl, rfl⟩⟩
  | answer completion =>
      rcases of_mem_attemptsBy_answer h with ⟨htopology, _, _, _, _, hcompleted, -⟩
      rcases hcompleted.of_finish with ⟨waiting, hcall, hid, -⟩
      rw [← hid]
      exact ⟨htopology, .inr (List.mem_map.2 ⟨waiting, hcall, rfl⟩)⟩

theorem length_attemptsBy (cluster : Cluster) (event : Event) :
    (cluster.attemptsBy event).length ≤ 1 := by
  cases event with
  | plan => exact Nat.zero_le 1
  | release => exact Nat.zero_le 1
  | refresh => exact Nat.zero_le 1
  | shutdown => exact Nat.zero_le 1
  | connect => exact Nat.le_refl 1
  | answer completion =>
      have hended := (cluster.pools.network.completed completion).length_finished
      exact Nat.le_trans (List.length_filterMap_le _ _) hended

end Cluster

namespace History

/-- A run of events adds attempts and views; the version counts the views, and no attempt
is made in a view from before the run but the one current at its start. -/
theorem growth_run (history : History) (events : List Event) :
    ∃ begun shown, (history.run events).attempts = history.attempts ++ begun ∧
      (history.run events).published = history.published ++ shown ∧
      (history.run events).cluster.topology.version =
        history.cluster.topology.version + shown.length ∧
      ∀ attempt ∈ begun, history.cluster.topology.version ≤ attempt.topology.version := by
  refine run_induction
    (fun later => ∃ begun shown, later.attempts = history.attempts ++ begun ∧
      later.published = history.published ++ shown ∧
      later.cluster.topology.version =
        history.cluster.topology.version + shown.length ∧
      ∀ attempt ∈ begun, history.cluster.topology.version ≤ attempt.topology.version)
    (fun _ => True) ?_ ⟨[], [], by simp, by simp, rfl, by simp⟩ (fun _ _ => trivial)
  rintro later event - ⟨begun, shown, hattempts, hpublished, hversion, hviews⟩ -
  have hgrows := (later.cluster.performed event).version
  refine ⟨begun ++ later.cluster.attemptsBy event,
    shown ++ publishedBy later.cluster (later.cluster.perform event).1, ?_, ?_, ?_, ?_⟩
  · simp [extend, hattempts]
  · simp [extend, hpublished]
  · simp only [extend, List.length_append]
    omega
  · intro attempt hattempt
    rcases List.mem_append.1 hattempt with hold | hnew
    · exact hviews attempt hold
    · rw [(Cluster.of_mem_attemptsBy hnew).1]
      omega

end History
end RingRouting
