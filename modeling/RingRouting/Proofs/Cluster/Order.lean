import RingRouting.Proofs.Cluster.Settings

/-!
# Calls and turns

Every call of a cluster has a number of its own, be it one that waits on the pools, a
refresh that waits for its turn, or one that has ended; in particular no call ends twice.
At most one refresh is under way at a time: it runs, or it has been let in, or connections
are being closed for it; only while there is one do others wait.

Main results:

- Theorem `Cluster.Orderly.performed`: every event keeps this order.
- Theorem `History.orderly_run`: so does every run of events.
- Theorem `History.run_invariant`: what such events keep, runs of them keep.
-/

namespace RingRouting

/-- The numbers of the refreshes that wait for their turn or have been let in. -/
def RefreshQueue.ids (queue : RefreshQueue) : List CallId :=
  (queue.admitted.toList ++ queue.waiting).map Prod.fst

/-- Whether a call is for the end of a refresh. -/
def Purpose.isRefresh : Purpose → Bool
  | refresh => true
  | _ => false

/-- The calls that a step has ended. -/
def ClusterProgress.endedIds (progress : ClusterProgress) : List CallId :=
  progress.finished.map Prod.fst

namespace Network

/-! ## Counting calls -/

/-- How many calls wait whose purpose is such. -/
def countCalls (network : Network Purpose) (such : Purpose → Bool) : Nat :=
  network.calls.countP fun call => such call.purpose

theorem countCalls_suspend (network : Network Purpose) (call : CallId) (purpose : Purpose)
    (wait : Wait) (such : Purpose → Bool) :
    (network.suspend call purpose wait).countCalls such =
      network.countCalls such + (such purpose).toNat := by
  simp only [countCalls, suspend, List.countP_append, List.countP_singleton]
  cases such purpose <;> rfl

theorem countCalls_resume {network : Network Purpose} {waiting : Call Purpose}
    (hnodup : network.callIds.Nodup) (hcall : waiting ∈ network.calls)
    (such : Purpose → Bool) :
    network.countCalls such =
      (network.resume waiting.id).countCalls such + (such waiting.purpose).toNat := by
  unfold countCalls
  rw [(calls_perm_resume hnodup hcall).countP_eq, List.countP_cons]
  cases such waiting.purpose <;> rfl

/-- The call that an answer is for ends or waits again, with the purpose it had. -/
theorem Completed.countCalls {network : Network Purpose}
    {result : Network Purpose × Progress Purpose} (h : network.Completed result)
    (hnodup : network.callIds.Nodup) (such : Purpose → Bool) :
    network.countCalls such =
      result.1.countCalls such + result.2.finished.countP fun ended => such ended.purpose := by
  have hended : ∀ call purpose outcome,
      ((Progress.finish call purpose outcome).finished.countP fun ended =>
        such ended.purpose) = (such purpose).toNat := by
    intro call purpose outcome
    simp only [Progress.finish, List.countP_singleton]
    cases such purpose <;> rfl
  cases h with
  | ignored => rfl
  | lent hcall =>
      rw [hended]
      exact countCalls_resume hnodup hcall such
  | late hcall =>
      rw [countCalls_suspend]
      exact countCalls_resume hnodup hcall such
  | unreachable hcall =>
      rw [hended]
      exact countCalls_resume hnodup hcall such
  | discarded hcall =>
      rw [hended]
      exact countCalls_resume hnodup hcall such
  | lastClosed hcall =>
      rw [hended]
      exact countCalls_resume hnodup hcall such
  | oneClosed hcall =>
      rw [countCalls_suspend]
      exact countCalls_resume hnodup hcall such

end Network

/-- Making pools changes nothing of the network but its pools. -/
theorem EndpointPools.network_openMissing (pools : EndpointPools Purpose)
    (view : ClusterView) :
    (pools.openMissing view).2.network =
      { pools.network with pools := (pools.openMissing view).2.network.pools } := by
  refine openMissingFor_induction
    (fun after => after.network = { pools.network with pools := after.network.pools })
    ?_ view.addresses pools rfl
  intro current endpoint after hsame _ hopen
  obtain ⟨pool, -, rfl⟩ := openPool_eq_ok hopen
  simp only [Network.addPool]
  rw [hsame]

/-- In a cluster that was built no call waits, and nothing is being refreshed. -/
theorem ClusterBuilder.calls_of_build {builder : ClusterBuilder}
    {entropy : Nat → Nat → UInt32} {cluster : Cluster}
    (hbuild : builder.build entropy = .ok cluster) :
    cluster.pools.network.calls = [] ∧ cluster.refreshes = .idle := by
  obtain ⟨-, blank, hblank, hfirst⟩ := build_eq_ok hbuild
  have hnone : blank.pools.network.calls = [] := by
    rw [hblank.network]
    rfl
  rcases hfirst with rfl | hpublish
  · exact ⟨hnone, hblank.refreshes⟩
  · obtain ⟨topology, -, -, rfl⟩ := Cluster.publish_eq_ok hpublish
    refine ⟨?_, hblank.refreshes⟩
    change (blank.pools.openMissing (.ofReports builder.knownPeers)).2.network.calls = []
    rw [blank.pools.network_openMissing (.ofReports builder.knownPeers)]
    exact hnone

namespace Cluster

/-! ## Order -/

/-- Besides the calls that wait, the listed ones run or have ended, and so many of them
hold the turn of a refresh. -/
structure Orderly (cluster : Cluster) (others : List CallId) (turns : Nat) : Prop where
  numbered : cluster.pools.network.Numbered (others ++ cluster.refreshes.ids)
  locked : cluster.pools.network.countCalls Purpose.isRefresh +
    cluster.refreshes.admitted.toList.length + turns = cluster.refreshes.busy.toNat
  unlocked : cluster.refreshes.busy = false → cluster.refreshes.waiting = []

namespace Orderly

variable {cluster after : Cluster} {others : List CallId} {call : CallId} {turns : Nat}
  {result : Cluster × ClusterProgress}

/-- Only the calls, their numbers and the queue matter. -/
theorem congr (h : cluster.Orderly others turns)
    (hcalls : after.pools.network.calls = cluster.pools.network.calls)
    (hnext : after.pools.network.nextCall = cluster.pools.network.nextCall)
    (hqueue : after.refreshes = cluster.refreshes) : after.Orderly others turns where
  numbered := by
    rw [hqueue]
    exact h.numbered.congr hcalls hnext
  locked := by
    rw [hqueue, ← h.locked]
    simp only [Network.countCalls, hcalls]
  unlocked := by
    rw [hqueue]
    exact h.unlocked

/-- A call may be forgotten. -/
theorem finish (h : cluster.Orderly (call :: others) turns) : cluster.Orderly others turns :=
  ⟨h.numbered.finish, h.locked, h.unlocked⟩

/-- It does not matter in which order the others are listed. -/
theorem perm {listed : List CallId} (h : cluster.Orderly others turns)
    (hperm : others.Perm listed) : cluster.Orderly listed turns :=
  ⟨h.numbered.perm rfl ((hperm.append_right _).append_left _), h.locked, h.unlocked⟩

/-- A call that runs may wait; one that holds a turn keeps it. -/
theorem suspend {network : Network Purpose} {purpose : Purpose}
    (h : cluster.Orderly (call :: others) (turns + purpose.isRefresh.toNat))
    (hcalls : network.calls = cluster.pools.network.calls)
    (hnext : network.nextCall = cluster.pools.network.nextCall) (wait : Wait) :
    (cluster.setNetwork (network.suspend call purpose wait)).Orderly others turns where
  numbered := (h.numbered.congr hcalls hnext).suspend purpose wait
  locked := by
    have hlocked := h.locked
    have hcount : network.countCalls Purpose.isRefresh =
        cluster.pools.network.countCalls Purpose.isRefresh := by
      simp only [Network.countCalls, hcalls]
    simp only [setNetwork, Network.countCalls_suspend, hcount]
    omega
  unlocked := h.unlocked

theorem newCall (h : cluster.Orderly others turns) :
    cluster.newCall.2.Orderly (cluster.newCall.1 :: others) turns :=
  ⟨h.numbered.newCall, h.locked, h.unlocked⟩

/-- While a refresh runs, none has been let in, and the cluster is busy. -/
theorem of_turn (h : cluster.Orderly others 1) :
    cluster.refreshes.admitted = none ∧ cluster.refreshes.busy = true ∧
      cluster.pools.network.countCalls Purpose.isRefresh = 0 := by
  have hlocked := h.locked
  cases hbusy : cluster.refreshes.busy with
  | false =>
      rw [hbusy] at hlocked
      simp at hlocked
  | true =>
      rw [hbusy, Bool.toNat_true] at hlocked
      have hzero : cluster.refreshes.admitted.toList.length = 0 := by omega
      refine ⟨?_, rfl, by omega⟩
      cases hadmitted : cluster.refreshes.admitted with
      | none => rfl
      | some first => simp [hadmitted] at hzero

/-- The end of a refresh lets the next one in. -/
theorem endRefresh (h : cluster.Orderly (call :: others) 1) (outcome : Outcome) :
    (cluster.endRefresh call outcome).1.Orderly
      ((cluster.endRefresh call outcome).2.endedIds ++ others) 0 := by
  obtain ⟨hadmitted, hbusy, hnone⟩ := h.of_turn
  have hnumbered := h.numbered
  unfold Cluster.endRefresh
  cases hwaiting : cluster.refreshes.waiting with
  | nil =>
      have hids : cluster.refreshes.ids = RefreshQueue.idle.ids := by
        simp [RefreshQueue.ids, RefreshQueue.idle, hadmitted, hwaiting]
      refine ⟨?_, ?_, fun _ => rfl⟩
      · rw [← hids]
        exact hnumbered
      · simpa [RefreshQueue.idle] using hnone
  | cons next rest =>
      have hids : cluster.refreshes.ids = (RefreshQueue.mk true (some next) rest).ids := by
        simp [RefreshQueue.ids, hadmitted, hwaiting]
      refine ⟨?_, ?_, ?_⟩
      · simp only
        rw [← hids]
        exact hnumbered
      · simpa using hnone
      · intro hfree
        cases hfree

theorem attempted {key : PartitionKey} (h : cluster.Orderly (call :: others) turns)
    (hresult : Attempted cluster call key result) :
    result.1.Orderly (result.2.endedIds ++ others) turns := by
  cases hresult with
  | failed => exact h.congr rfl rfl rfl
  | missing => exact h.finish.congr rfl rfl rfl
  | reused => exact h.congr rfl rfl rfl
  | @opening _ _ endpoint id pool =>
      have hturns : cluster.Orderly (call :: others)
          (turns + (Purpose.connect key cluster.topology.version endpoint).isRefresh.toNat) := h
      exact (hturns.suspend rfl rfl _).congr rfl rfl rfl

/-- Disposing pools for a refresh that runs ends it, or lets it wait with its turn. -/
theorem disposed {purpose : Purpose} {ids : List PoolId}
    {network : Network Purpose} {progress : Progress Purpose}
    (h : cluster.Orderly (call :: others) (turns + purpose.isRefresh.toNat))
    (hdisposed : cluster.pools.network.Disposed call purpose ids (network, progress)) :
    (progress = .finish call purpose .done ∧
        (cluster.setNetwork network).Orderly (call :: others)
          (turns + purpose.isRefresh.toNat)) ∨
      progress.finished = [] ∧ (cluster.setNetwork network).Orderly others turns := by
  have hpools := Network.disposePools_eq ids cluster.pools.network
  have hcalls := congrArg Network.calls hpools
  have hnext := congrArg Network.nextCall hpools
  cases hdisposed with
  | quiet => exact .inl ⟨rfl, h.congr hcalls hnext rfl⟩
  | closing => exact .inr ⟨rfl, h.suspend hcalls hnext _⟩

theorem openMissing (h : cluster.Orderly others turns) (view : ClusterView) :
    { cluster with pools := (cluster.pools.openMissing view).2 }.Orderly others turns := by
  have hpools := cluster.pools.network_openMissing view
  have hcalls : (cluster.pools.openMissing view).2.network.calls =
      cluster.pools.network.calls := by rw [hpools]
  have hnext : (cluster.pools.openMissing view).2.network.nextCall =
      cluster.pools.network.nextCall := by rw [hpools]
  exact h.congr hcalls hnext rfl

/-- A refresh that runs ends, or waits with its turn. -/
theorem refreshed {view : ClusterView} (h : cluster.Orderly (call :: others) 1)
    (hresult : Refreshed cluster call view result) :
    result.1.Orderly (result.2.endedIds ++ others) 0 := by
  have hopened : { cluster with pools := (cluster.pools.openMissing view).2 }.Orderly
      (call :: others) (0 + Purpose.refresh.isRefresh.toNat) := h.openMissing view
  cases hresult with
  | refused => exact h.endRefresh _
  | unopened => exact hopened.endRefresh _
  | closing _ _ hdisposed =>
      rcases hopened.disposed hdisposed with ⟨hended, -⟩ | ⟨-, hwaits⟩
      · cases hended
      · exact hwaits.congr rfl rfl rfl
  | published _ _ hdisposed =>
      rcases hopened.disposed hdisposed with ⟨-, hends⟩ | ⟨hended, -⟩
      · refine endRefresh ?_ _
        exact hends.congr rfl rfl rfl
      · cases hended

theorem released {id : PoolId} {connection : Connection}
    (h : cluster.Orderly (call :: others) turns)
    (hresult : Released cluster call id connection result) :
    result.1.Orderly (result.2.endedIds ++ others) turns := by
  cases hresult with
  | missing => exact h.finish
  | kept => exact h.congr rfl rfl rfl
  | closing =>
      have hturns : cluster.Orderly (call :: others)
          (turns + Purpose.direct.isRefresh.toNat) := h
      exact hturns.suspend rfl rfl _

theorem shutDown (h : cluster.Orderly (call :: others) turns)
    (hresult : ShutDown cluster call result) :
    result.1.Orderly (result.2.endedIds ++ others) turns := by
  have hturns : cluster.Orderly (call :: others)
      (turns + Purpose.direct.isRefresh.toNat) := h
  cases hresult with
  | quiet hdisposed =>
      rcases hturns.disposed hdisposed with ⟨-, hends⟩ | ⟨hended, -⟩
      · exact hends.congr rfl rfl rfl
      · cases hended
  | closing hdisposed =>
      rcases hturns.disposed hdisposed with ⟨hended, -⟩ | ⟨-, hwaits⟩
      · cases hended
      · exact hwaits.congr rfl rfl rfl

/-- The call that an answer is for runs on, with its turn if it is a refresh. -/
theorem completed {network : Network Purpose} {progress : Progress Purpose}
    (h : cluster.Orderly others 0)
    (hcompleted : cluster.pools.network.Completed (network, progress)) :
    (cluster.setNetwork network).Orderly (Network.endedIds progress ++ others)
      (progress.finished.countP fun ended => ended.purpose.isRefresh) where
  numbered := by
    rw [List.append_assoc]
    exact h.numbered.completed hcompleted
  locked := by
    have hlocked := h.locked
    have hcount := hcompleted.countCalls h.numbered.callIds_nodup Purpose.isRefresh
    simp only [setNetwork] at hcount ⊢
    omega
  unlocked := h.unlocked

theorem absorbed {ended : Finished Purpose}
    (h : cluster.Orderly (ended.call :: others) ended.purpose.isRefresh.toNat)
    (hresult : Absorbed cluster ended result) :
    result.1.Orderly (result.2.endedIds ++ others) 0 := by
  cases hresult with
  | direct hpurpose =>
      rw [hpurpose] at h
      exact h
  | concluded hpurpose =>
      rw [hpurpose] at h
      cases hended : ended.outcome <;> exact h
  | replanned hpurpose _ _ hattempted =>
      rw [hpurpose] at h
      exact h.attempted hattempted
  | refresh hpurpose =>
      rw [hpurpose] at h
      exact h.endRefresh _

theorem answered {completion : Completion} (h : cluster.Orderly others 0)
    (hresult : Answered cluster completion result) :
    result.1.Orderly (result.2.endedIds ++ others) 0 := by
  cases hresult with
  | ignored => exact h
  | @turn first view _ hadmitted _ hrefreshed =>
      have hlocked := h.locked
      rw [hadmitted] at hlocked
      have hids : cluster.refreshes.ids =
          first :: (RefreshQueue.mk cluster.refreshes.busy none
            cluster.refreshes.waiting).ids := by
        simp [RefreshQueue.ids, hadmitted]
      have hnumbered := h.numbered
      rw [hids] at hnumbered
      have hturn : (cluster.withQueue { cluster.refreshes with admitted := none }).Orderly
          (first :: others) 1 :=
        ⟨hnumbered.perm rfl (List.perm_middle.append_left _), hlocked, h.unlocked⟩
      exact hturn.refreshed hrefreshed
  | waits hcompleted => exact h.completed hcompleted
  | @ends network first purpose outcome _ hcompleted _ habsorbed =>
      have hcalled := h.completed hcompleted
      refine absorbed ?_ habsorbed
      cases purpose <;> exact hcalled

/-- Every event keeps the order of calls and turns. -/
theorem performed {event : Event} (h : cluster.Orderly others 0)
    (hresult : Performed cluster event result) :
    result.1.Orderly (result.2.endedIds ++ others) 0 := by
  cases hresult with
  | plan => exact h.congr rfl rfl rfl
  | connect hattempted => exact h.newCall.attempted hattempted
  | release hreleased => exact h.newCall.released hreleased
  | @queued reports hbusy =>
      have hnew := h.newCall
      refine ⟨?_, hnew.locked, ?_⟩
      · refine hnew.numbered.perm rfl (List.Perm.append_left _ ?_)
        have hids : ((cluster.newCall.2.withQueue
            { cluster.refreshes with waiting := cluster.refreshes.waiting ++
              [(cluster.newCall.1, .ofReports reports)] }).refreshes.ids) =
            cluster.refreshes.ids ++ [cluster.newCall.1] := by
          simp [RefreshQueue.ids, withQueue]
        rw [hids]
        simp only [ClusterProgress.endedIds, ClusterProgress.none, List.map_nil,
          List.nil_append, List.cons_append, ← List.append_assoc]
        exact (List.perm_append_singleton _ _).symm
      · intro hfree
        have hsame : cluster.refreshes.busy = false := hfree
        rw [hbusy] at hsame
        cases hsame
  | refresh hfree hrefreshed =>
      have hnew := h.newCall
      have hlocked := hnew.locked
      have hturn : (cluster.newCall.2.withQueue
          { cluster.refreshes with busy := true }).Orderly (cluster.newCall.1 :: others) 1 := by
        refine ⟨hnew.numbered, ?_, ?_⟩
        · have hzero : cluster.newCall.2.refreshes.busy = false := hfree
          rw [hzero] at hlocked
          exact congrArg (· + 1) hlocked
        · intro hbusy
          cases hbusy
      exact hturn.refreshed hrefreshed
  | shutdown hshutDown => exact h.newCall.shutDown hshutDown
  | answer hanswered => exact h.answered hanswered

/-- A cluster that was built has no calls. -/
theorem built {builder : ClusterBuilder} {entropy : Nat → Nat → UInt32}
    (hbuild : builder.build entropy = .ok cluster) : cluster.Orderly [] 0 := by
  obtain ⟨hcalls, hqueue⟩ := ClusterBuilder.calls_of_build hbuild
  refine ⟨⟨?_, ?_⟩, ?_, ?_⟩
  · simp [Network.callIds, hcalls, hqueue, RefreshQueue.ids, RefreshQueue.idle]
  · simp [Network.callIds, hcalls, hqueue, RefreshQueue.ids, RefreshQueue.idle]
  · simp [Network.countCalls, hcalls, hqueue, RefreshQueue.idle]
  · simp [hqueue, RefreshQueue.idle]

end Orderly

end Cluster

namespace History

/-- The cluster is in order, and no call that has ended does anything more. -/
def Orderly (history : History) : Prop :=
  history.cluster.Orderly (history.ended.map Prod.fst) 0

theorem Orderly.extend {history : History} (h : history.Orderly) (event : Event) :
    (history.extend event).Orderly := by
  refine (Cluster.Orderly.performed h (history.cluster.performed event)).perm ?_
  simp only [History.extend, List.map_append]
  exact List.perm_append_comm

/-- Every run of events keeps the order of calls and turns. -/
theorem orderly_run {history : History} (h : history.Orderly) (events : List Event) :
    (history.run events).Orderly := by
  refine run_induction Orderly (fun _ => True) ?_ h (fun _ _ => trivial)
  intro later event _ hlater _
  exact hlater.extend event

/-- The history of a cluster that was built begins in order. -/
theorem orderly_start {builder : ClusterBuilder} {entropy : Nat → Nat → UInt32}
    {cluster : Cluster} (hbuild : builder.build entropy = .ok cluster) :
    (start cluster).Orderly :=
  Cluster.Orderly.built hbuild

/-- What every event keeps that an orderly cluster with these settings allows, a run of
such events keeps. -/
theorem run_invariant {first : History} (Holds : History → Prop) (Allowed : Event → Prop)
    (hstep : ∀ history event, Allowed event → Holds history → history.Orderly →
      history.cluster.settings = first.cluster.settings →
      event.isPossible history.leases = true → Holds (history.extend event))
    (horderly : first.Orderly) (hfirst : Holds first) {events : List Event}
    (hevents : ∀ event ∈ events, Allowed event) : Holds (first.run events) := by
  have hall := run_induction
    (fun history => Holds history ∧ history.Orderly ∧
      history.cluster.settings = first.cluster.settings)
    Allowed ?_ ⟨hfirst, horderly, rfl⟩ hevents
  · exact hall.1
  · rintro history event hallowed ⟨hholds, hordered, hsettings⟩ hpossible
    have hperformed := history.cluster.performed event
    exact ⟨hstep history event hallowed hholds hordered hsettings hpossible,
      hordered.extend event, hperformed.settings.trans hsettings⟩

end History
end RingRouting
