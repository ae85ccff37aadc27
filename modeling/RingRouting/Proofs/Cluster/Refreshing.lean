import RingRouting.Proofs.Cluster.Order
import RingRouting.Proofs.Cluster.Soundness

/-!
# Refreshes return

A refresh that was begun is under way until it returns: it waits for its turn, or has been
let in, or waits until the connections of those who left are closed.  Where no policy
refuses what it is asked for, a refresh can only return well; none gets lost, none returns
twice, and none waits for what can never come.

Main results:

- Theorem `Cluster.Performed.carries`: what an event does to the refreshes under way.
- Theorem `History.refreshes_run`: the refreshes that were begun are those under way and
  those that have returned.
- Theorem `History.exists_answers`: whatever the state, some answers let all return.
-/

namespace RingRouting

/-! ## Refreshes under way -/

/-- The call, if it is a refresh. -/
def Purpose.refresh? (purpose : Purpose) (call : CallId) : List CallId :=
  if purpose.isRefresh then [call] else []

namespace Network

/-- The refreshes for which connections are being closed. -/
def closers (network : Network Purpose) : List CallId :=
  network.calls.flatMap fun call => call.purpose.refresh? call.id

/-- Every refresh that waits on the pools waits for the end of some connections. -/
def Closing (network : Network Purpose) : Prop :=
  ∀ call ∈ network.calls, call.purpose = .refresh →
    ∃ first rest, call.wait = .closing (first :: rest)

variable {network after : Network Purpose} {call : CallId} {purpose : Purpose}

/-- Only the calls matter. -/
theorem closers_congr (hcalls : after.calls = network.calls) :
    after.closers = network.closers := by
  unfold closers
  rw [hcalls]

theorem Closing.congr (h : network.Closing) (hcalls : after.calls = network.calls) :
    after.Closing := by
  unfold Closing
  rw [hcalls]
  exact h

@[simp]
theorem closers_suspend (network : Network Purpose) (call : CallId) (purpose : Purpose)
    (wait : Wait) :
    (network.suspend call purpose wait).closers = network.closers ++ purpose.refresh? call := by
  simp [closers, suspend]

theorem closers_perm_resume {waiting : Call Purpose} (hnodup : network.callIds.Nodup)
    (hcall : waiting ∈ network.calls) :
    network.closers.Perm
      (waiting.purpose.refresh? waiting.id ++ (network.resume waiting.id).closers) :=
  (calls_perm_resume hnodup hcall).flatMap_right _

theorem Closing.resume (h : network.Closing) (call : CallId) : (network.resume call).Closing :=
  fun waiting hwaiting => h waiting (List.mem_filter.1 hwaiting).1

theorem Closing.suspend (h : network.Closing) {wait : Wait}
    (hwait : purpose = .refresh → ∃ first rest, wait = .closing (first :: rest)) :
    (network.suspend call purpose wait).Closing := by
  intro waiting hwaiting hpurpose
  rcases List.mem_append.1 hwaiting with hold | hnew
  · exact h waiting hold hpurpose
  · rw [List.mem_singleton.1 hnew] at hpurpose ⊢
    exact hwait hpurpose

/-- A call is found by its number. -/
theorem call?_eq_some {waiting : Call Purpose} (hnodup : network.callIds.Nodup)
    (hcall : waiting ∈ network.calls) : network.call? waiting.id = some waiting := by
  cases hfound : network.call? waiting.id with
  | none =>
      have hother := List.find?_eq_none.1 hfound waiting hcall
      simp at hother
  | some found =>
      have hsame : found.id = waiting.id := by simpa using List.find?_some hfound
      rw [List.inj_on_of_nodup_map hnodup (call?_mem hfound) hcall hsame]

/-- The refreshes that a step on the pools has ended. -/
def endedRefreshes (progress : Progress Purpose) : List CallId :=
  progress.finished.flatMap fun ended => ended.purpose.refresh? ended.call

/-- A step in which the given refreshes run neither loses one nor adds one; and those that
wait afterwards wait for something. -/
structure Carries (network : Network Purpose) (running : List CallId)
    (result : Network Purpose × Progress Purpose) : Prop where
  perm : (running ++ network.closers).Perm (endedRefreshes result.2 ++ result.1.closers)
  closing : network.Closing → result.1.Closing

/-- A call that waited ends. -/
theorem carries_resume {waiting : Call Purpose} (hnodup : network.callIds.Nodup)
    (hcall : waiting ∈ network.calls) (hcalls : after.calls = (network.resume waiting.id).calls)
    (outcome : PoolOutcome) :
    network.Carries [] (after, .finish waiting.id waiting.purpose outcome) where
  perm := by
    simp only [endedRefreshes, Progress.finish, List.flatMap_singleton, closers_congr hcalls]
    exact closers_perm_resume hnodup hcall
  closing := fun hclosing => (hclosing.resume waiting.id).congr hcalls

/-- A call that waited waits again. -/
theorem carries_suspend {waiting : Call Purpose} {wait : Wait}
    (hnodup : network.callIds.Nodup) (hcall : waiting ∈ network.calls)
    (hcalls : after.calls = (network.resume waiting.id).calls)
    (hwait : network.Closing → waiting.purpose = .refresh →
      ∃ first rest, wait = .closing (first :: rest)) (requests : List Request) :
    network.Carries [] (after.suspend waiting.id waiting.purpose wait, .ask requests) where
  perm := by
    rw [closers_suspend, closers_congr hcalls]
    exact (closers_perm_resume hnodup hcall).trans List.perm_append_comm
  closing := fun hclosing =>
    ((hclosing.resume waiting.id).congr hcalls).suspend (hwait hclosing)

/-- The call that an answer is for ends, or waits again. -/
theorem Completed.carries {result : Network Purpose × Progress Purpose}
    (h : network.Completed result) (hnodup : network.callIds.Nodup) :
    network.Carries [] result := by
  cases h with
  | ignored => exact ⟨.refl _, id⟩
  | lent hcall =>
      apply carries_resume hnodup hcall
      rfl
  | unreachable hcall =>
      apply carries_resume hnodup hcall
      rfl
  | discarded hcall =>
      apply carries_resume hnodup hcall
      rfl
  | lastClosed hcall =>
      apply carries_resume hnodup hcall
      rfl
  | late hcall hwait =>
      apply carries_suspend hnodup hcall
      · rfl
      · intro hclosing hpurpose
        obtain ⟨first, rest, hcloses⟩ := hclosing _ hcall hpurpose
        rw [hwait] at hcloses
        cases hcloses
  | oneClosed hcall _ _ hmore =>
      apply carries_suspend hnodup hcall
      · rfl
      · intro _ _
        obtain ⟨first, rest, hleft⟩ := List.exists_cons_of_ne_nil hmore
        exact ⟨first, rest, congrArg Wait.closing hleft⟩

/-- A call that disposes pools ends, or waits. -/
theorem Disposed.carries {ids : List PoolId} {result : Network Purpose × Progress Purpose}
    (h : network.Disposed call purpose ids result) :
    network.Carries (purpose.refresh? call) result := by
  have hcalls : (network.disposePools ids).2.calls = network.calls := by
    rw [disposePools_eq]
  cases h with
  | quiet =>
      refine ⟨?_, fun hclosing => hclosing.congr hcalls⟩
      simp [endedRefreshes, Progress.finish, closers_congr hcalls]
  | closing hsome =>
      refine ⟨?_, fun hclosing => (hclosing.congr hcalls).suspend fun _ => ?_⟩
      · rw [closers_suspend, closers_congr hcalls]
        exact List.perm_append_comm
      · obtain ⟨first, rest, hleft⟩ := List.exists_cons_of_ne_nil hsome
        exact ⟨first, rest, congrArg Wait.closing hleft⟩

end Network

/-- The refreshes that a step has ended well. -/
def ClusterProgress.refreshed (progress : ClusterProgress) : List CallId :=
  (progress.finished.filter fun ended => ended.2 = .refreshed).map Prod.fst

namespace Cluster

/-- The refreshes under way: those for which connections are being closed, the one that has
been let in, and those that wait for their turn. -/
def refreshing (cluster : Cluster) : List CallId :=
  cluster.pools.network.closers ++ cluster.refreshes.ids

/-- The refresh that an event begins, if it begins one. -/
def begins (cluster : Cluster) (event : Event) : List CallId :=
  if event.isRefresh then [cluster.newCall.1] else []

/-- A step in which the given refreshes run ends them well or leaves them under way, together
with those that were; and those that wait on the pools wait for something. -/
structure Carries (cluster : Cluster) (running : List CallId)
    (result : Cluster × ClusterProgress) : Prop where
  perm : (running ++ cluster.refreshing).Perm (result.2.refreshed ++ result.1.refreshing)
  closing : cluster.pools.network.Closing → result.1.pools.network.Closing

variable {cluster begun : Cluster} {call : CallId} {others running : List CallId}
  {result : Cluster × ClusterProgress}

namespace Carries

/-- Only the calls and the queue matter. -/
theorem congr (h : begun.Carries running result)
    (hcalls : begun.pools.network.calls = cluster.pools.network.calls)
    (hids : begun.refreshes.ids = cluster.refreshes.ids) : cluster.Carries running result where
  perm := by
    have hperm := h.perm
    unfold refreshing at hperm ⊢
    rwa [Network.closers_congr hcalls, hids] at hperm
  closing := fun hclosing => h.closing (hclosing.congr hcalls)

/-- A step that ends no refresh and leaves calls and queue alone. -/
theorem of_eq (hcalls : result.1.pools.network.calls = cluster.pools.network.calls)
    (hids : result.1.refreshes.ids = cluster.refreshes.ids)
    (hnone : result.2.refreshed = []) : cluster.Carries [] result := by
  refine congr ⟨?_, id⟩ hcalls hids
  rw [hnone]

end Carries

theorem Attempted.carries {key : PartitionKey} (h : Attempted cluster call key result) :
    cluster.Carries [] result := by
  cases h with
  | failed => exact .of_eq rfl rfl rfl
  | missing => exact .of_eq rfl rfl rfl
  | reused => exact .of_eq rfl rfl rfl
  | @opening _ _ endpoint =>
      refine ⟨?_, fun hclosing => hclosing.suspend fun hpurpose => ?_⟩
      · simp [refreshing, ClusterProgress.refreshed, setNetwork, withDraws, Purpose.refresh?,
          Purpose.isRefresh]
      · cases hpurpose

theorem Released.carries {id : PoolId} {connection : Connection}
    (h : Released cluster call id connection result) : cluster.Carries [] result := by
  cases h with
  | missing => exact .of_eq rfl rfl rfl
  | kept => exact .of_eq rfl rfl rfl
  | closing =>
      refine ⟨?_, fun hclosing => hclosing.suspend fun hpurpose => ?_⟩
      · simp [refreshing, ClusterProgress.refreshed, setNetwork, Purpose.refresh?,
          Purpose.isRefresh]
      · cases hpurpose

theorem ShutDown.carries (h : ShutDown cluster call result) : cluster.Carries [] result := by
  cases h with
  | quiet hdisposed =>
      have hcarries := hdisposed.carries
      exact ⟨hcarries.perm.append_right _, hcarries.closing⟩
  | closing hdisposed =>
      have hcarries := hdisposed.carries
      exact ⟨hcarries.perm.append_right _, hcarries.closing⟩

/-- The end of a refresh lets the next one in, and changes nothing else. -/
theorem carries_endRefresh (hadmitted : cluster.refreshes.admitted = none) (call : CallId) :
    cluster.Carries [call] (cluster.endRefresh call .refreshed) := by
  unfold endRefresh
  cases hwaiting : cluster.refreshes.waiting with
  | nil =>
      refine ⟨?_, id⟩
      simp [refreshing, RefreshQueue.ids, RefreshQueue.idle, hadmitted, hwaiting,
        ClusterProgress.refreshed, ClusterProgress.finish]
  | cons next rest =>
      refine ⟨?_, id⟩
      simp [refreshing, RefreshQueue.ids, hadmitted, hwaiting, ClusterProgress.refreshed]

/-- Where no policy refuses, a refresh that has its turn publishes its view; it returns, or
waits until the connections of those who left are closed. -/
theorem Refreshed.published_of_unfailing {view : ClusterView}
    (h : Refreshed cluster call view result) (hunfailing : cluster.settings.Unfailing) :
    ∃ topology network outcome, (cluster.pools.openMissing view).2.network.Disposed call .refresh
        ((cluster.pools.openMissing view).2.dropped (EndpointPools.isMember view))
        (network, outcome) ∧
      ((∃ requests, outcome = .ask requests ∧
          result = (cluster.withView view topology network, ⟨requests, []⟩)) ∨
        outcome = .finish call .refresh .done ∧
          result = (cluster.withView view topology network).endRefresh call .refreshed) := by
  cases h with
  | refused hbuild =>
      obtain ⟨topology, hbuilt⟩ := hunfailing.buildTopology view
      rw [hbuild] at hbuilt
      cases hbuilt
  | unopened _ hopen =>
      rw [hunfailing.openMissing view] at hopen
      cases hopen
  | closing _ _ hdisposed => exact ⟨_, _, _, hdisposed, .inl ⟨_, rfl, rfl⟩⟩
  | published _ _ hdisposed => exact ⟨_, _, _, hdisposed, .inr ⟨rfl, rfl⟩⟩

/-- A refresh that has its turn returns well, or waits until connections are closed. -/
theorem Refreshed.carries {view : ClusterView} (h : Refreshed cluster call view result)
    (hunfailing : cluster.settings.Unfailing)
    (hadmitted : cluster.refreshes.admitted = none) : cluster.Carries [call] result := by
  have hcalls : (cluster.pools.openMissing view).2.network.calls =
      cluster.pools.network.calls := by rw [cluster.pools.network_openMissing view]
  suffices hopened : { cluster with pools := (cluster.pools.openMissing view).2 }.Carries
      [call] result from hopened.congr hcalls rfl
  obtain ⟨topology, network, outcome, hdisposed, hresult⟩ := h.published_of_unfailing hunfailing
  have hcarries := hdisposed.carries
  rcases hresult with ⟨requests, rfl, rfl⟩ | ⟨rfl, rfl⟩
  · exact ⟨hcarries.perm.append_right _, hcarries.closing⟩
  · have hfree : (cluster.withView view topology network).refreshes.admitted = none :=
      hadmitted
    have hends := carries_endRefresh hfree call
    exact ⟨(hcarries.perm.append_right _).trans hends.perm,
      fun hclosing => hends.closing (hcarries.closing hclosing)⟩

/-- A refresh that has its turn returns, or waits for the end of some connections. -/
theorem Refreshed.returns_or_waits {view : ClusterView}
    (h : Refreshed cluster call view result) (hunfailing : cluster.settings.Unfailing) :
    result.2.refreshed = [call] ∨ ∃ left, left ≠ [] ∧
      ⟨call, .refresh, .closing left⟩ ∈ result.1.pools.network.calls := by
  obtain ⟨topology, network, outcome, hdisposed, hresult⟩ := h.published_of_unfailing hunfailing
  rcases hresult with ⟨requests, rfl, rfl⟩ | ⟨-, rfl⟩
  · right
    cases hdisposed with
    | closing hleft =>
        exact ⟨_, hleft, List.mem_append_right _ (List.mem_singleton_self _)⟩
  · left
    obtain ⟨queue, requests, hend⟩ :=
      (cluster.withView view topology network).endRefresh_eq call .refreshed
    rw [hend]
    rfl

theorem Absorbed.carries {ended : Finished Purpose} (h : Absorbed cluster ended result)
    (hadmitted : ended.purpose = .refresh → cluster.refreshes.admitted = none) :
    cluster.Carries (ended.purpose.refresh? ended.call) result := by
  cases h with
  | direct hpurpose =>
      rw [hpurpose]
      refine .of_eq rfl rfl ?_
      cases ended.outcome <;> rfl
  | concluded hpurpose =>
      rw [hpurpose]
      refine .of_eq rfl rfl ?_
      cases ended.outcome <;> rfl
  | replanned hpurpose _ _ hattempted =>
      rw [hpurpose]
      exact hattempted.carries
  | refresh hpurpose =>
      rw [hpurpose]
      exact carries_endRefresh (hadmitted hpurpose) ended.call

theorem Answered.carries {completion : Completion} (h : Answered cluster completion result)
    (hunfailing : cluster.settings.Unfailing) (horderly : cluster.Orderly others 0) :
    cluster.Carries [] result := by
  have hnodup := horderly.numbered.callIds_nodup
  cases h with
  | ignored => exact .of_eq rfl rfl rfl
  | @turn first view _ hadmitted _ hrefreshed =>
      have hcarries := hrefreshed.carries hunfailing rfl
      refine ⟨List.Perm.trans ?_ hcarries.perm, hcarries.closing⟩
      simp only [refreshing, RefreshQueue.ids, hadmitted, withQueue, List.nil_append,
        Option.toList_some, Option.toList_none, List.map_append, List.map_cons, List.map_nil]
      exact List.perm_middle
  | waits hcompleted =>
      have hcarries := hcompleted.carries hnodup
      exact ⟨hcarries.perm.append_right _, hcarries.closing⟩
  | @ends network first purpose outcome _ hcompleted _ habsorbed =>
      have hcarries := hcompleted.carries hnodup
      have hturn : purpose = .refresh →
          (cluster.setNetwork network).refreshes.admitted = none := by
        rintro rfl
        exact (horderly.completed hcompleted).of_turn.1
      have hends := habsorbed.carries hturn
      refine ⟨?_, fun hclosing => hends.closing (hcarries.closing hclosing)⟩
      refine (hcarries.perm.append_right _).trans ?_
      simpa [Network.endedRefreshes, Progress.finish, refreshing, setNetwork] using hends.perm

/-- An event begins and ends refreshes, and carries on those that it leaves under way. -/
theorem Performed.carries {event : Event} (h : Performed cluster event result)
    (hunfailing : cluster.settings.Unfailing) (horderly : cluster.Orderly others 0) :
    cluster.Carries (cluster.begins event) result := by
  cases h with
  | plan => exact .of_eq rfl rfl rfl
  | connect hattempted => exact hattempted.carries.congr rfl rfl
  | release hreleased => exact hreleased.carries.congr rfl rfl
  | shutdown hshutDown => exact hshutDown.carries.congr rfl rfl
  | answer hanswered => exact hanswered.carries hunfailing horderly
  | @queued reports =>
      refine ⟨?_, id⟩
      have hafter : (cluster.newCall.2.withQueue
          { cluster.refreshes with waiting := cluster.refreshes.waiting ++
            [(cluster.newCall.1, .ofReports reports)] }).refreshing =
          cluster.refreshing ++ [cluster.newCall.1] := by
        simp only [refreshing, RefreshQueue.ids, withQueue, List.map_append, List.append_assoc]
        rfl
      rw [hafter]
      exact (List.perm_append_singleton _ _).symm
  | refresh hfree hrefreshed =>
      refine (hrefreshed.carries hunfailing ?_).congr rfl rfl
      have hlocked := horderly.locked
      rw [hfree, Bool.toNat_false] at hlocked
      have hzero : cluster.refreshes.admitted.toList.length = 0 := by omega
      have hnone : cluster.refreshes.admitted = none := by simpa using hzero
      exact hnone

end Cluster

/-- The end of a refresh on the pools is its end. -/
theorem Cluster.refreshed_absorbAll (cluster : Cluster) (call : CallId) :
    (cluster.absorbAll (.finish call .refresh .done)).2.refreshed = [call] := by
  obtain ⟨queue, requests, hend⟩ := cluster.endRefresh_eq call .refreshed
  have habsorbed : cluster.absorbAll (.finish call .refresh .done) =
      ((cluster.endRefresh call .refreshed).1,
        (ClusterProgress.mk [] []).append (cluster.endRefresh call .refreshed).2) := rfl
  rw [habsorbed, hend]
  rfl

namespace History

/-! ## Runs of events -/

/-- The refreshes that have returned well, in order. -/
def refreshed (history : History) : List CallId :=
  (history.ended.filter fun ended => ended.2 = .refreshed).map Prod.fst

/-- The refreshes that a run of events begins. -/
def begun (history : History) : List Event → List CallId
  | [] => []
  | event :: rest => history.cluster.begins event ++ (history.step event).begun rest

/-- Calls are in order, no policy refuses anything, and every refresh that waits on the pools
waits for something. -/
structure Settled (history : History) : Prop where
  orderly : history.Orderly
  unfailing : history.cluster.settings.Unfailing
  closing : history.cluster.pools.network.Closing

namespace Settled

variable {history : History}

theorem carries (h : history.Settled) (event : Event) :
    history.cluster.Carries (history.cluster.begins event) (history.cluster.perform event) :=
  (history.cluster.performed event).carries h.unfailing h.orderly

theorem extend (h : history.Settled) (event : Event) : (history.extend event).Settled where
  orderly := h.orderly.extend event
  unfailing := by
    have hsettings : (history.extend event).cluster.settings = history.cluster.settings :=
      (history.cluster.performed event).settings
    rw [hsettings]
    exact h.unfailing
  closing := (h.carries event).closing h.closing

theorem run (h : history.Settled) (events : List Event) : (history.run events).Settled :=
  run_induction Settled (fun _ => True) (fun _ event _ hlater _ => hlater.extend event) h
    (fun _ _ => trivial)

end Settled

/-- A cluster that was built begins settled if none of its policies refuses anything. -/
theorem settled_start {builder : ClusterBuilder} {entropy : Nat → Nat → UInt32}
    {cluster : Cluster} (hbuild : builder.build entropy = .ok cluster)
    (hunfailing : cluster.settings.Unfailing) : (start cluster).Settled where
  orderly := orderly_start hbuild
  unfailing := hunfailing
  closing := by
    intro call hcall
    change call ∈ cluster.pools.network.calls at hcall
    rw [(ClusterBuilder.calls_of_build hbuild).1] at hcall
    cases hcall

/-- No refresh is under way in a cluster that was built. -/
theorem refreshing_start {builder : ClusterBuilder} {entropy : Nat → Nat → UInt32}
    {cluster : Cluster} (hbuild : builder.build entropy = .ok cluster) :
    cluster.refreshing = [] := by
  obtain ⟨hcalls, hqueue⟩ := ClusterBuilder.calls_of_build hbuild
  simp [Cluster.refreshing, Network.closers, hcalls, hqueue, RefreshQueue.ids,
    RefreshQueue.idle]

theorem refreshed_extend (history : History) (event : Event) :
    (history.extend event).refreshed =
      history.refreshed ++ (history.cluster.perform event).2.refreshed := by
  simp [refreshed, extend, ClusterProgress.refreshed]

/-- The refreshes that were begun are those that have returned well and those under way. -/
theorem refreshes_run {history : History} (h : history.Settled) (events : List Event) :
    (history.begun events ++ (history.refreshed ++ history.cluster.refreshing)).Perm
      ((history.run events).refreshed ++ (history.run events).cluster.refreshing) := by
  induction events generalizing history with
  | nil => exact .refl _
  | cons event rest ih =>
      rw [run_cons, begun]
      unfold step
      split
      · have hrest := ih (h.extend event)
        have hstep := (h.carries event).perm
        rw [refreshed_extend] at hrest
        change (_ ++ (_ ++ (history.cluster.perform event).1.refreshing)).Perm _ at hrest
        rw [List.perm_iff_count] at hrest hstep ⊢
        intro call
        have hrestCount := hrest call
        have hstepCount := hstep call
        simp only [List.count_append] at hrestCount hstepCount ⊢
        omega
      · rename_i himpossible
        have hnone : history.cluster.begins event = [] := by
          cases event with
          | refresh => exact absurd rfl himpossible
          | _ => rfl
        rw [hnone]
        exact ih h

/-- Answers begin no refresh. -/
theorem begun_answers (history : History) (answers : List Completion) :
    history.begun (answers.map .answer) = [] := by
  induction answers generalizing history with
  | nil => rfl
  | cons answer rest ih => exact ih _

/-! ## Answers that let refreshes return -/

/-- Some answers let a refresh return. -/
def Returns (history : History) : Prop :=
  ∃ answers : List Completion,
    (history.run (answers.map .answer)).cluster.refreshing.length <
      history.cluster.refreshing.length

namespace Settled

variable {history : History}

theorem length_refreshing (h : history.Settled) (answer : Completion) :
    history.cluster.refreshing.length =
      (history.cluster.perform (.answer answer)).2.refreshed.length +
        (history.step (.answer answer)).cluster.refreshing.length := by
  have hlength := (h.carries (.answer answer)).perm.length_eq
  rw [List.length_append, List.length_append] at hlength
  exact (Nat.zero_add _).symm.trans hlength

/-- An answer in which a refresh returns is enough. -/
theorem returns_of_refreshed (h : history.Settled) {answer : Completion}
    (hreturned : (history.cluster.perform (.answer answer)).2.refreshed ≠ []) :
    history.Returns := by
  have hlength := h.length_refreshing answer
  have hpositive := List.length_pos_iff.2 hreturned
  refine ⟨[answer], ?_⟩
  simp only [List.map_cons, List.map_nil, run_cons, run_nil]
  omega

/-- An answer may come before those that let a refresh return. -/
theorem returns_of_extend (h : history.Settled) (answer : Completion)
    (hlater : (history.extend (.answer answer)).Returns) : history.Returns := by
  have hlength := h.length_refreshing answer
  have hstep : history.step (.answer answer) = history.extend (.answer answer) := rfl
  obtain ⟨answers, hless⟩ := hlater
  refine ⟨answer :: answers, ?_⟩
  simp only [List.map_cons, run_cons]
  rw [hstep] at hlength ⊢
  omega

/-- One connection after another is closed, and then the refresh returns. -/
theorem returns_of_closing {call : CallId} {left : List Connection} (h : history.Settled)
    (hcall : ⟨call, .refresh, .closing left⟩ ∈ history.cluster.pools.network.calls)
    (hsome : left ≠ []) : history.Returns := by
  induction left generalizing history with
  | nil => exact absurd rfl hsome
  | cons first rest ih =>
      have hfound := Network.call?_eq_some h.orderly.numbered.callIds_nodup hcall
      have hcomplete := Network.complete_closed hfound rfl (List.mem_cons_self : first ∈ _ :: rest)
      rw [List.erase_cons_head] at hcomplete
      have hperform : history.cluster.perform (.answer (.closed call first)) =
          (history.cluster.setNetwork
            (history.cluster.pools.network.complete (.closed call first)).1).absorbAll
              (history.cluster.pools.network.complete (.closed call first)).2 := rfl
      rw [hcomplete] at hperform
      by_cases hlast : rest = []
      · rw [if_pos (List.isEmpty_iff.2 hlast)] at hperform
        apply h.returns_of_refreshed
        rw [hperform, Cluster.refreshed_absorbAll]
        exact List.cons_ne_nil _ _
      · rw [if_neg fun hempty => hlast (List.isEmpty_iff.1 hempty)] at hperform
        apply h.returns_of_extend (.closed call first)
        refine ih (h.extend _) ?_ hlast
        change _ ∈ (history.cluster.perform _).1.pools.network.calls
        rw [hperform]
        exact List.mem_append_right _ (List.mem_singleton_self _)

/-- A refresh that has its turn returns, or waits until connections are closed. -/
theorem returns_of_turn {call : CallId} {view : ClusterView} (h : history.Settled)
    (hadmitted : history.cluster.refreshes.admitted = some (call, view)) :
    history.Returns := by
  have hperform : history.cluster.perform (.answer (.turn call)) =
      (history.cluster.withQueue
        { history.cluster.refreshes with admitted := none }).runRefresh call view := by
    simp [Cluster.perform, Cluster.complete, hadmitted, Cluster.withQueue]
  have hrefreshed := (history.cluster.withQueue
    { history.cluster.refreshes with admitted := none }).refreshed call view
  rw [← hperform] at hrefreshed
  rcases hrefreshed.returns_or_waits h.unfailing with hreturned | ⟨left, hsome, hcall⟩
  · apply h.returns_of_refreshed
    rw [hreturned]
    exact List.cons_ne_nil _ _
  · apply h.returns_of_extend (.turn call)
    exact (h.extend _).returns_of_closing hcall hsome

/-- While a refresh is under way, some answers let one return. -/
theorem returns (h : history.Settled) (hsome : history.cluster.refreshing ≠ []) :
    history.Returns := by
  cases hadmitted : history.cluster.refreshes.admitted with
  | some first => exact h.returns_of_turn hadmitted
  | none =>
      by_cases hwaits : ∃ waiting ∈ history.cluster.pools.network.calls,
          waiting.purpose = .refresh
      · obtain ⟨waiting, hcall, hpurpose⟩ := hwaits
        obtain ⟨first, rest, hwait⟩ := h.closing waiting hcall hpurpose
        cases waiting
        subst hpurpose hwait
        exact h.returns_of_closing hcall (List.cons_ne_nil _ _)
      · -- nothing holds the turn, so nothing waits for it either
        have hother : ∀ waiting ∈ history.cluster.pools.network.calls,
            waiting.purpose.isRefresh = false := by
          intro waiting hcall
          cases hpurpose : waiting.purpose with
          | refresh => exact absurd ⟨waiting, hcall, hpurpose⟩ hwaits
          | direct => rfl
          | connect => rfl
        have hclosers : history.cluster.pools.network.closers = [] := by
          apply List.flatMap_eq_nil_iff.2
          intro waiting hcall
          simp [Purpose.refresh?, hother waiting hcall]
        have hcount : history.cluster.pools.network.countCalls Purpose.isRefresh = 0 := by
          apply List.countP_eq_zero.2
          intro waiting hcall
          simp [hother waiting hcall]
        have hlocked := h.orderly.locked
        rw [hcount, hadmitted] at hlocked
        have hqueue := h.orderly.unlocked (Bool.toNat_eq_zero.1 hlocked.symm)
        apply absurd _ hsome
        simp [Cluster.refreshing, hclosers, RefreshQueue.ids, hadmitted, hqueue]

end Settled

/-- Whatever the state is, some answers let all refreshes return well. -/
theorem exists_answers {history : History} (h : history.Settled) :
    ∃ answers : List Completion, (history.refreshed ++ history.cluster.refreshing).Perm
      (history.run (answers.map .answer)).refreshed := by
  have hdrained : ∃ answers : List Completion,
      (history.run (answers.map .answer)).cluster.refreshing = [] := by
    generalize hlength : history.cluster.refreshing.length = count
    induction count using Nat.strongRecOn generalizing history with
    | ind count ih =>
        by_cases hnone : history.cluster.refreshing = []
        · exact ⟨[], hnone⟩
        · obtain ⟨first, hless⟩ := h.returns hnone
          obtain ⟨rest, hrest⟩ := ih _ (hlength ▸ hless) (h.run _) rfl
          refine ⟨first ++ rest, ?_⟩
          rw [List.map_append, run_append]
          exact hrest
  obtain ⟨answers, hnone⟩ := hdrained
  have hperm := refreshes_run h (answers.map .answer)
  rw [begun_answers, hnone, List.append_nil] at hperm
  exact ⟨answers, hperm⟩

end History
end RingRouting
