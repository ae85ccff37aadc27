import RingRouting.Proofs.Cluster.Growth
import RingRouting.Proofs.Cluster.Waiting

/-!
# Connect calls while views change

While a connect call waits, refreshes may publish views and dispose pools.  The call is
planned anew only once its view is out of date, so each of its attempts is made in a later
view than the one before; and it never ends because a pool is gone, for the pools of the
current view are not.

Main results:

- Theorem `Cluster.Follows.performed`: every event but a shutdown lets calls follow their
  attempts, and ends a connect call only with what its last attempt warrants.
- Theorem `History.Tracked.extend`: the attempts of a call, and how it ends, after one more
  event.
- Theorem `History.connects_by_current_views`: the same for every connect call in every run
  of events.
-/

namespace RingRouting

/-- Whether an outcome is one of a connect call. -/
def Outcome.isRouted : Outcome → Bool
  | leased _ => true
  | unrouted _ => true
  | _ => false

namespace Cluster

variable {cluster : Cluster} {call : CallId} {key : PartitionKey}
  {result : Cluster × ClusterProgress}

/-! ## How connect calls end -/

/-- What may be told to the caller of a connect call: no error that its pool is gone, and
no lease but one of a pool that leads to a replica that its last attempt picked. -/
structure Serves (cluster : Cluster) (attempts : List Attempt) (call : CallId)
    (outcome : Outcome) : Prop where
  notGone : ∀ e, outcome = .unrouted (.pool e) → e.poolIsGone = false
  leased : ∀ lease, outcome = .leased lease →
    cluster.pools.network.Leads lease.pool lease.endpoint ∧
      ∃ attempt, Attempt.lastOf attempts call = some attempt ∧
        cluster.settings.Owns attempt lease.endpoint

/-- Other calls are told nothing of the kind. -/
theorem Serves.of_other {attempts : List Attempt} {outcome : Outcome}
    (hother : outcome.isRouted = false) : cluster.Serves attempts call outcome := by
  constructor
  · intro e h
    rw [h] at hother
    cases hother
  · intro lease h
    rw [h] at hother
    cases hother

/-- The end of a refresh is not the end of a connect call. -/
theorem Serves.endRefresh {after : Cluster} {attempts : List Attempt} {outcome : Outcome}
    (hother : outcome.isRouted = false) :
    ∀ ended ∈ (cluster.endRefresh call outcome).2.finished,
      after.Serves attempts ended.1 ended.2 := by
  rcases cluster.endRefresh_eq call outcome with ⟨queue, requests, hend⟩
  rw [hend]
  intro ended hended
  rw [List.mem_singleton.1 hended]
  exact .of_other hother

/-- A refresh tells nothing of the kind. -/
theorem Refreshed.serves {after : Cluster} {view : ClusterView} {attempts : List Attempt}
    (h : Refreshed cluster call view result) :
    ∀ ended ∈ result.2.finished, after.Serves attempts ended.1 ended.2 := by
  cases h with
  | refused => exact Serves.endRefresh rfl
  | unopened => exact Serves.endRefresh rfl
  | published => exact Serves.endRefresh rfl
  | closing =>
      intro ended hended
      cases hended

/-- Nor does the return of a lease. -/
theorem Released.serves {after : Cluster} {id : PoolId} {connection : Connection}
    {attempts : List Attempt} (h : Released cluster call id connection result) :
    ∀ ended ∈ result.2.finished, after.Serves attempts ended.1 ended.2 := by
  intro ended hended
  cases h with
  | missing => cases hended
  | closing => cases hended
  | kept =>
      rw [List.mem_singleton.1 hended]
      exact .of_other rfl

/-- An attempt does not fail because a pool is gone: members of the view have pools. -/
theorem Fails.notGone {e : RouteError} (h : cluster.Fails key e)
    (hlibrary : cluster.HasLibraryStrategy) (hcovered : cluster.Covered) (cause : PoolError) :
    e ≠ .pool cause := by
  rintro rfl
  cases h with
  | plan hplan =>
      have hplanned := cluster.planned key
      rw [hplan] at hplanned
      cases hplanned
  | @pick plan _ hplan hpick =>
      simp only [Plan.pick] at hpick
      cases hpicked : plan.strategy.pick.1 <;>
        simp [hpicked, Except.mapError] at hpick
  | noPool hchooses hfind =>
      rcases hchooses.pool hlibrary hcovered with ⟨id, pool, hsome, -⟩
      rw [hfind] at hsome
      cases hsome
  | disposed hchooses hfind hpool hdisposed =>
      rcases hchooses.pool hlibrary hcovered with ⟨id, pool, hsome, hlooked, hlive⟩
      rw [hfind] at hsome
      cases hsome
      unfold EndpointPools.pool? at hlooked
      rw [hpool] at hlooked
      cases hlooked
      rw [hdisposed] at hlive
      cases hlive

/-- What an attempt tells at once is warranted by it. -/
theorem Attempted.serves (h : Attempted cluster call key result)
    (hlibrary : cluster.HasLibraryStrategy) (hcovered : cluster.Covered)
    (hplaced : cluster.pools.Placed) (attempts : List Attempt) :
    ∀ ended ∈ result.2.finished,
      result.1.Serves (attempts ++ [⟨call, key, cluster.topology⟩]) ended.1 ended.2 := by
  have hstandings := h.standings
  intro ended hended
  cases h with
  | missing => cases hended
  | opening => cases hended
  | failed hfails =>
      rw [List.mem_singleton.1 hended]
      refine ⟨?_, fun _ hleased => by cases hleased⟩
      intro cause hcause
      cases hcause
      exact absurd rfl (hfails.notGone hlibrary hcovered cause)
  | @reused _ _ endpoint id _ _ _ hchooses hfind =>
      rw [List.mem_singleton.1 hended]
      constructor
      · intro cause hcause
        cases hcause
      · intro lease hlease
        cases hlease
        have hleads : cluster.pools.network.Leads id endpoint :=
          hplaced.exists_standing hfind
        refine ⟨hleads.congr hstandings, ⟨call, key, cluster.topology⟩, ?_,
          hchooses.owns hlibrary call⟩
        exact Attempt.lastOf_append_self attempts ⟨call, key, cluster.topology⟩

namespace Follows

variable {attempts : List Attempt} {others : List CallId}

/-- A connect call whose pool has answered: its last attempt, the connection it got, and
the version it waited in, which is out of date if the pool is gone. -/
theorem finished (h : cluster.Follows attempts) {network : Network Purpose}
    {version : Nat} {endpoint : Address} {outcome : PoolOutcome}
    (hcompleted : cluster.pools.network.Completed
      (network, .finish call (.connect key version endpoint) outcome)) :
    (∃ attempt, Attempt.lastOf attempts call = some attempt ∧ attempt.key = key ∧
        attempt.topology.version = version ∧ cluster.settings.Owns attempt endpoint) ∧
      version ≤ cluster.topology.version ∧
      (∀ id connection, outcome = .lent id connection →
        cluster.pools.network.Leads id endpoint) ∧
      ∀ e, outcome = .failed e → e.poolIsGone = true → version < cluster.topology.version := by
  rcases hcompleted.of_finish with ⟨waiting, hcall, rfl, hpurpose, -, hlent, hgone⟩
  rcases h waiting hcall key version endpoint hpurpose with
    ⟨⟨hle, own, hleads, hwait⟩, hlast⟩
  refine ⟨hlast, hle, ?_, ?_⟩
  · intro id connection houtcome
    rcases hwait with ⟨hopening, -⟩ | ⟨_, hdiscarding, -⟩
    · rw [hlent id connection houtcome] at hopening
      cases hopening
      exact hleads
    · rw [hlent id connection houtcome] at hdiscarding
      cases hdiscarding
  · intro e houtcome hpool
    rcases hgone e houtcome hpool with ⟨id, connection, hdiscards⟩
    rcases hwait with ⟨hopening, -⟩ | ⟨_, -, hlt⟩
    · rw [hdiscards] at hopening
      cases hopening
    · exact hlt

/-- An attempt is made with the key of those before it, in a later view. -/
theorem precedes (h : cluster.Follows attempts)
    (hordered : attempts.Pairwise Attempt.Precedes)
    (hbegun : ∀ attempt ∈ attempts, attempt.call < cluster.pools.network.nextCall)
    {event : Event} {next : Attempt} (hnext : next ∈ cluster.attemptsBy event)
    {attempt : Attempt} (hattempt : attempt ∈ attempts) : attempt.Precedes next := by
  intro hcall
  cases event with
  | plan => cases hnext
  | release => cases hnext
  | refresh => cases hnext
  | shutdown => cases hnext
  | connect key =>
      -- a new call has made no attempt before
      rw [List.mem_singleton.1 hnext] at hcall
      have hlt := hbegun attempt hattempt
      have hnew : attempt.call = cluster.pools.network.nextCall := hcall
      exact absurd hnew (Nat.ne_of_lt hlt)
  | answer completion =>
      rcases of_mem_attemptsBy_answer hnext with
        ⟨htopology, network, version, endpoint, e, hcompleted, hgone⟩
      rcases h.finished hcompleted with ⟨⟨last, hlast, hkey, hversion, -⟩, hle, -, -⟩
      have hlater : version < next.topology.version := by
        simp only [replans, Bool.and_eq_true, bne_iff_ne] at hgone
        rw [htopology]
        omega
      rcases Attempt.precedes_lastOf hordered hlast hattempt hcall with rfl | hbefore
      · exact ⟨hkey, by omega⟩
      · have hlastCall := (Attempt.mem_of_lastOf hlast).2
        rcases hbefore (hcall.trans hlastCall.symm) with ⟨hkeys, hversions⟩
        exact ⟨hkeys.trans hkey, by omega⟩

/-- A connect call that ends when its pool has answered tells what its last attempt
warrants. -/
theorem concluded (h : cluster.Follows attempts) {network : Network Purpose}
    {version : Nat} {endpoint : Address} {outcome : PoolOutcome}
    (hcompleted : cluster.pools.network.Completed
      (network, .finish call (.connect key version endpoint) outcome))
    (hstay : ∀ e, outcome = .failed e → cluster.replans version e = false) :
    ∀ ended ∈ (concludeConnect call endpoint outcome).finished,
      (cluster.setNetwork network).Serves attempts ended.1 ended.2 := by
  rcases h.finished hcompleted with ⟨⟨attempt, hlast, -, -, howns⟩, hle, hlent, hgone⟩
  intro ended hended
  cases outcome with
  | done =>
      rw [List.mem_singleton.1 hended]
      exact .of_other rfl
  | lent id connection =>
      rw [List.mem_singleton.1 hended]
      constructor
      · intro cause hcause
        cases hcause
      · intro lease hlease
        cases hlease
        exact ⟨(hlent id connection rfl).congr hcompleted.standings, attempt, hlast, howns⟩
  | failed e =>
      rw [List.mem_singleton.1 hended]
      refine ⟨?_, fun _ hleased => by cases hleased⟩
      intro cause hcause
      cases hcause
      -- a pool that is gone shows that the view is out of date, and the call is tried again
      cases hpool : e.poolIsGone with
      | false => rfl
      | true =>
          have hlt := hgone e rfl hpool
          have hsame := hstay e rfl
          simp only [replans, hpool, Bool.true_and, bne_eq_false_iff_eq] at hsame
          omega

/-- What follows the end of a call on the pools: another attempt, or the end of the call. -/
theorem absorbed {network : Network Purpose} {purpose : Purpose} {outcome : PoolOutcome}
    (h : cluster.Follows attempts) (hlibrary : cluster.HasLibraryStrategy)
    (hcovered : (cluster.setNetwork network).Covered) (hplaced : cluster.pools.Placed)
    (hcompleted : cluster.pools.network.Completed (network, .finish call purpose outcome))
    (hafter : (cluster.setNetwork network).Follows attempts)
    (hresult : Absorbed (cluster.setNetwork network) ⟨call, purpose, outcome⟩ result) :
    result.1.Follows (attempts ++ (cluster.attemptAfter ⟨call, purpose, outcome⟩).toList) ∧
      ∀ ended ∈ result.2.finished, result.1.Serves
        (attempts ++ (cluster.attemptAfter ⟨call, purpose, outcome⟩).toList) ended.1 ended.2 := by
  cases hresult with
  | direct hpurpose =>
      simp only at hpurpose
      subst hpurpose
      simp only [attemptAfter, Option.toList_none, List.append_nil]
      refine ⟨hafter, ?_⟩
      intro ended hended
      rw [List.mem_singleton.1 hended]
      cases outcome <;> exact .of_other rfl
  | refresh hpurpose =>
      simp only at hpurpose
      subst hpurpose
      simp only [attemptAfter, Option.toList_none, List.append_nil]
      refine ⟨hafter.endRefresh _, ?_⟩
      exact Serves.endRefresh rfl
  | @concluded key version endpoint hpurpose hstay =>
      simp only at hpurpose hstay
      subst hpurpose
      have hnone : cluster.attemptAfter ⟨call, .connect key version endpoint, outcome⟩ = none := by
        cases outcome with
        | lent => rfl
        | done => rfl
        | failed e =>
            have hno : cluster.replans version e = false := hstay e rfl
            simp [attemptAfter, hno]
      rw [hnone, Option.toList_none, List.append_nil]
      exact ⟨hafter, h.concluded hcompleted hstay⟩
  | @replanned key version endpoint e _ hpurpose houtcome hgone hattempted =>
      simp only at hpurpose houtcome
      subst hpurpose houtcome
      have hsome : cluster.attemptAfter ⟨call, .connect key version endpoint, .failed e⟩ =
          some ⟨call, key, cluster.topology⟩ := by
        have hyes : cluster.replans version e = true := hgone
        simp [attemptAfter, hyes]
      have hplacedAfter : (cluster.setNetwork network).pools.Placed :=
        hplaced.congr rfl hcompleted.standings
      have hfresh : call ∉ (cluster.setNetwork network).pools.network.callIds := by
        rcases hcompleted.of_finish with ⟨-, -, -, -, hcalls, -⟩
        simp [setNetwork, Network.callIds, hcalls, Network.resume]
      rw [hsome, Option.toList_some]
      exact ⟨hafter.attempted hlibrary hplacedAfter hfresh hattempted,
        hattempted.serves hlibrary hcovered hplacedAfter attempts⟩

/-- An answer to a call that waits lets calls follow their attempts, the one that it may
begin among them. -/
theorem answered {completion : Completion} (h : cluster.Follows attempts)
    (hlibrary : cluster.HasLibraryStrategy) (hcovered : cluster.Covered)
    (hplaced : cluster.pools.Placed) (horderly : cluster.Orderly others 0)
    (hresult : Answered cluster completion result) :
    result.1.Follows (attempts ++ cluster.attemptsBy (.answer completion)) ∧
      ∀ ended ∈ result.2.finished, result.1.Serves
        (attempts ++ cluster.attemptsBy (.answer completion)) ended.1 ended.2 := by
  cases hresult with
  | ignored hnone =>
      have hattempts : cluster.attemptsBy (.answer completion) = [] := by
        simp [attemptsBy, hnone, Progress.none]
      rw [hattempts, List.append_nil]
      refine ⟨h, ?_⟩
      intro ended hended
      cases hended
  | turn _ hturn hrefreshed =>
      have hattempts : cluster.attemptsBy (.answer completion) = [] := by
        rw [hturn]
        rfl
      rw [hattempts, List.append_nil]
      exact ⟨refreshed hrefreshed (h.congr rfl rfl rfl rfl rfl), hrefreshed.serves⟩
  | waits hcompleted hcomplete =>
      have hattempts : cluster.attemptsBy (.answer completion) = [] := by
        simp [attemptsBy, hcomplete, Progress.ask]
      rw [hattempts, List.append_nil]
      refine ⟨h.completed hcovered hcompleted, ?_⟩
      intro ended hended
      cases hended
  | ends hcompleted hcomplete habsorbed =>
      rw [attemptsBy_of_ends hcomplete]
      exact h.absorbed hlibrary (hcovered.completed horderly hcompleted).1 hplaced
        hcompleted (h.completed hcovered hcompleted) habsorbed

/-- Every event but a shutdown lets calls follow their attempts, and ends a connect call
only with what its last attempt warrants. -/
theorem performed {event : Event} (h : cluster.Follows attempts)
    (hlibrary : cluster.HasLibraryStrategy) (hcovered : cluster.Covered)
    (hplaced : cluster.pools.Placed) (horderly : cluster.Orderly others 0)
    (hevent : event.isShutdown = false) (hresult : Performed cluster event result) :
    result.1.Follows (attempts ++ cluster.attemptsBy event) ∧
      ∀ ended ∈ result.2.finished,
        result.1.Serves (attempts ++ cluster.attemptsBy event) ended.1 ended.2 := by
  have hnew : cluster.newCall.2.Follows attempts := h.congr rfl rfl rfl rfl rfl
  cases hresult with
  | plan =>
      simp only [attemptsBy, List.append_nil]
      refine ⟨h.congr rfl rfl rfl rfl rfl, ?_⟩
      intro ended hended
      cases hended
  | connect hattempted =>
      have hfresh : cluster.newCall.1 ∉ cluster.newCall.2.pools.network.callIds := by
        intro hmem
        have hlt := horderly.numbered.below cluster.pools.network.nextCall
          (List.mem_append_left _ hmem)
        exact Nat.lt_irrefl _ hlt
      have hcoveredNew : cluster.newCall.2.Covered := hcovered.congr rfl rfl rfl (Nat.le_refl _)
      have hplacedNew : cluster.newCall.2.pools.Placed := hplaced.congr rfl rfl
      exact ⟨hnew.attempted hlibrary hplacedNew hfresh hattempted,
        hattempted.serves hlibrary hcoveredNew hplacedNew attempts⟩
  | release hreleased =>
      simp only [attemptsBy, List.append_nil]
      exact ⟨hnew.released hreleased, hreleased.serves⟩
  | queued =>
      simp only [attemptsBy, List.append_nil]
      refine ⟨h.congr rfl rfl rfl rfl rfl, ?_⟩
      intro ended hended
      cases hended
  | refresh _ hrefreshed =>
      simp only [attemptsBy, List.append_nil]
      exact ⟨refreshed hrefreshed (h.congr rfl rfl rfl rfl rfl), hrefreshed.serves⟩
  | shutdown => cases hevent
  | answer hanswered => exact h.answered hlibrary hcovered hplaced horderly hanswered

end Follows

end Cluster

namespace History

/-! ## Runs of events -/

/-- The attempts of calls, each in a later view than the one before, and the ends of calls
as the last attempts warrant them. -/
structure Tracked (history : History) : Prop where
  follows : history.cluster.Follows history.attempts
  begun : ∀ attempt ∈ history.attempts,
    attempt.call < history.cluster.pools.network.nextCall ∧
      attempt.topology.version ≤ history.cluster.topology.version
  ordered : history.attempts.Pairwise Attempt.Precedes
  notGone : ∀ call e, (call, Outcome.unrouted (.pool e)) ∈ history.ended →
    e.poolIsGone = false
  leased : ∀ call lease, (call, Outcome.leased lease) ∈ history.ended →
    lease.connection ∈ history.cluster.pools.network.opened ∧
      lease.connection.endpoint = lease.endpoint ∧
      ∃ attempt, Attempt.lastOf history.attempts call = some attempt ∧
        history.cluster.settings.Owns attempt lease.endpoint

/-- A call that has ended makes no attempt any more. -/
theorem Orderly.ofCall_extend {history : History} (h : history.Orderly) {call : CallId}
    {outcome : Outcome} (hended : (call, outcome) ∈ history.ended) (event : Event) :
    Attempt.ofCall (history.extend event).attempts call =
      Attempt.ofCall history.attempts call := by
  have hid : call ∈ history.ended.map Prod.fst := List.mem_map.2 ⟨_, hended, rfl⟩
  have hother := List.mem_append_left history.cluster.refreshes.ids hid
  apply Attempt.ofCall_append_of_ne
  intro attempt hattempt hsame
  rcases Cluster.of_mem_attemptsBy hattempt with ⟨-, ⟨-, hnew⟩ | hwaits⟩
  · have hlt := h.numbered.below call (List.mem_append_right _ hother)
    rw [← hsame, hnew] at hlt
    exact Nat.lt_irrefl _ hlt
  · have hdisjoint := (List.nodup_append.1 h.numbered.nodup).2.2
    exact hdisjoint _ hwaits _ hother hsame

/-- In no run of events does a call that has ended make an attempt. -/
theorem ofCall_run {history : History} (h : history.Orderly) {call : CallId}
    {outcome : Outcome} (hended : (call, outcome) ∈ history.ended) (events : List Event) :
    Attempt.ofCall (history.run events).attempts call =
      Attempt.ofCall history.attempts call := by
  have hboth : (call, outcome) ∈ (history.run events).ended ∧
      Attempt.ofCall (history.run events).attempts call =
        Attempt.ofCall history.attempts call := by
    refine run_invariant
      (fun later => (call, outcome) ∈ later.ended ∧
        Attempt.ofCall later.attempts call = Attempt.ofCall history.attempts call)
      (fun _ => True) ?_ h ⟨hended, rfl⟩ (fun _ _ => trivial)
    rintro later event - ⟨hlater, hsame⟩ horderly - -
    exact ⟨List.mem_append_left _ hlater, (horderly.ofCall_extend hlater event).trans hsame⟩
  exact hboth.2

namespace Tracked

variable {history : History} {event : Event}

/-- Attempts begin in the view that is current then, for calls that have numbers. -/
theorem begun_extend (h : history.Tracked) (horderly : history.Orderly) :
    ∀ attempt ∈ (history.extend event).attempts,
      attempt.call < (history.extend event).cluster.pools.network.nextCall ∧
        attempt.topology.version ≤ (history.extend event).cluster.topology.version := by
  have hperformed := history.cluster.performed event
  have hversion : history.cluster.topology.version ≤
      (history.extend event).cluster.topology.version := by
    have hgrows := hperformed.version
    simp only [extend]
    omega
  have hnext : history.cluster.pools.network.nextCall ≤
      (history.extend event).cluster.pools.network.nextCall := hperformed.extends.nextCall
  intro attempt hattempt
  rcases List.mem_append.1 hattempt with hold | hnew
  · rcases h.begun attempt hold with ⟨hcall, hview⟩
    exact ⟨Nat.lt_of_lt_of_le hcall hnext, Nat.le_trans hview hversion⟩
  · rcases Cluster.of_mem_attemptsBy hnew with ⟨htopology, ⟨hconnect, hcall⟩ | hwaits⟩
    · refine ⟨?_, by rw [htopology]; exact hversion⟩
      subst hconnect
      have hcalls : history.cluster.pools.network.nextCall + 1 ≤
          (history.extend (.connect attempt.key)).cluster.pools.network.nextCall :=
        (Cluster.attempted history.cluster.newCall.2 _ attempt.key).extends.nextCall
      rw [hcall]
      exact hcalls
    · refine ⟨?_, by rw [htopology]; exact hversion⟩
      have hlt := horderly.numbered.below attempt.call (List.mem_append_left _ hwaits)
      exact Nat.lt_of_lt_of_le hlt hnext

/-- The attempts of each call are made in ever later views. -/
theorem ordered_extend (h : history.Tracked) :
    (history.extend event).attempts.Pairwise Attempt.Precedes := by
  refine List.pairwise_append.2 ⟨h.ordered, ?_, ?_⟩
  · have hlength := history.cluster.length_attemptsBy event
    cases hnew : history.cluster.attemptsBy event with
    | nil => exact .nil
    | cons first rest =>
        rw [hnew, List.length_cons] at hlength
        have hrest : rest = [] := List.eq_nil_of_length_eq_zero (by omega)
        rw [hrest]
        exact List.pairwise_singleton _ _
  · intro attempt hattempt next hnext
    exact h.follows.precedes h.ordered (fun old hold => (h.begun old hold).1) hnext hattempt

/-- The attempts of calls and their ends, after one more event. -/
theorem extend (h : history.Tracked) (horderly : history.Orderly)
    (hcovered : history.cluster.Covered)
    (hconserves : history.cluster.pools.Conserves history.leases)
    (hpools : history.cluster.HasLibraryPools)
    (hstrategy : history.cluster.HasLibraryStrategy) (hevent : event.isShutdown = false)
    (hpossible : event.isPossible history.leases = true) :
    (history.extend event).Tracked := by
  have hperformed := history.cluster.performed event
  rcases h.follows.performed hstrategy hcovered hconserves.placed horderly hevent hperformed
    with ⟨hfollows, hserves⟩
  refine ⟨hfollows, h.begun_extend horderly, h.ordered_extend, ?_, ?_⟩
  · intro call e hended
    rcases List.mem_append.1 hended with hold | hnew
    · exact h.notGone call e hold
    · exact (hserves _ hnew).notGone e rfl
  · intro call lease hended
    rcases List.mem_append.1 hended with hold | hnew
    · rcases h.leased call lease hold with ⟨hopened, hsite, hlast⟩
      have hsettings : (history.extend event).cluster.settings = history.cluster.settings :=
        hperformed.settings
      rw [Attempt.lastOf, horderly.ofCall_extend hold, hsettings]
      exact ⟨hperformed.extends.opened _ hopened, hsite, hlast⟩
    · rcases (hserves _ hnew).leased lease rfl with ⟨hleads, hlast⟩
      have hafter : (history.extend event).cluster.pools.Conserves
          (history.extend event).leases :=
        hconserves.performed hpools horderly hpossible hperformed
      have hlease : lease ∈ (history.extend event).leases :=
        List.mem_append_right _ (List.mem_filterMap.2 ⟨_, hnew, rfl⟩)
      refine ⟨?_, (hafter.leads lease hlease).unique hleads, hlast⟩
      have hlent : lease.connection ∈ (history.extend event).leases.map Lease.connection :=
        List.mem_map.2 ⟨lease, hlease, rfl⟩
      rw [hafter.ledger.perm.mem_iff]
      simp only [List.mem_append]
      exact .inl (.inl (.inl (.inr hlent)))

end Tracked

/-- The attempts of calls and their ends, in every run of events without a shutdown. -/
theorem tracked_run {builder : ClusterBuilder} {entropy : Nat → Nat → UInt32}
    {cluster : Cluster} (hbuild : builder.build entropy = .ok cluster)
    (hpools : cluster.HasLibraryPools) (hstrategy : cluster.HasLibraryStrategy)
    {events : List Event} (hevents : ∀ event ∈ events, event.isShutdown = false) :
    ((start cluster).run events).Tracked := by
  have hfresh : cluster.MakesFresh := fun _ _ hpool => (hpools.made hpool).2.1
  have hfirst : (start cluster).cluster.Covered ∧
      (start cluster).cluster.pools.Conserves (start cluster).leases ∧
      (start cluster).Tracked := by
    refine ⟨.built hbuild hfresh, .built hbuild hpools, ?_⟩
    refine ⟨.built hbuild [], ?_, .nil, ?_, ?_⟩
    · intro attempt hattempt
      cases hattempt
    · intro call e hended
      cases hended
    · intro call lease hended
      cases hended
  have hall := run_invariant
    (fun later => later.cluster.Covered ∧ later.cluster.pools.Conserves later.leases ∧
      later.Tracked)
    (fun event => event.isShutdown = false) ?_ (orderly_start hbuild) hfirst hevents
  · exact hall.2.2
  · rintro later event hevent ⟨hcovered, hconserves, htracked⟩ horderly hsettings hpossible
    have hperformed := later.cluster.performed event
    have hpoolsNow : later.cluster.HasLibraryPools := hpools.congr hsettings
    have hstrategyNow : later.cluster.HasLibraryStrategy := hstrategy.congr hsettings
    have hfreshNow : later.cluster.MakesFresh := hfresh.congr hsettings
    exact ⟨(hcovered.performed hfreshNow horderly hevent hperformed).1,
      hconserves.performed hpoolsNow horderly hpossible hperformed,
      htracked.extend horderly hcovered hconserves hpoolsNow hstrategyNow hevent hpossible⟩

/-- The attempts of a connect call are made with its key, in no view from before it. -/
theorem Tracked.of_connect {begun : History} (h : begun.Tracked) {key : PartitionKey}
    {after : List Event} (hnow : (begun.run (.connect key :: after)).Tracked)
    {attempt : Attempt} (hattempt : attempt ∈ (begun.run (.connect key :: after)).attempts)
    (hcall : attempt.call = begun.cluster.newCall.1) :
    attempt.key = key ∧ begun.cluster.topology.version ≤ attempt.topology.version := by
  let first : Attempt := ⟨begun.cluster.newCall.1, key, begun.cluster.topology⟩
  rcases growth_run (begun.extend (.connect key)) after with ⟨made, -, hmade, -⟩
  have hattempts : (begun.run (.connect key :: after)).attempts =
      begun.attempts ++ first :: made := by
    have hsplit : begun.attempts ++ first :: made = begun.attempts ++ [first] ++ made := by
      simp
    rw [hsplit]
    exact hmade
  have hordered := hnow.ordered
  rw [hattempts] at hattempt hordered
  rcases List.mem_append.1 hattempt with hold | hnew
  · -- the call has a number of its own
    have hlt := (h.begun attempt hold).1
    rw [hcall] at hlt
    exact absurd hlt (Nat.lt_irrefl _)
  · rcases List.mem_cons.1 hnew with rfl | hrest
    · exact ⟨rfl, Nat.le_refl _⟩
    · have hprecedes := (List.pairwise_cons.1 (List.pairwise_append.1 hordered).2.1).1
      rcases hprecedes attempt hrest hcall.symm with ⟨hkey, hversion⟩
      exact ⟨hkey.symm, Nat.le_of_lt hversion⟩

/-- Over the library's strategies and pools, in every run of events without a shutdown, for
every connect call: it never ends because a pool is disposed or missing; at each moment it
has made at most one attempt more than views were published since it began, and once it has
ended it makes none; and if it gets a lease, the lease's connection was opened to the lease's
endpoint, which is a replica of the key in the view that was current when the last attempt
began. -/
theorem connects_by_current_views {builder : ClusterBuilder} {entropy : Nat → Nat → UInt32}
    {cluster : Cluster} (hbuild : builder.build entropy = .ok cluster)
    (hpools : cluster.HasLibraryPools) (hstrategy : cluster.HasLibraryStrategy)
    {before after : List Event} (hbefore : ∀ event ∈ before, event.isShutdown = false)
    (hafter : ∀ event ∈ after, event.isShutdown = false) (key : PartitionKey) :
    let begun := (start cluster).run before
    let call := begun.cluster.newCall.1
    let now := begun.run (.connect key :: after)
    (∀ endpoint, (call, Outcome.unrouted (.pool (.disposed endpoint))) ∉ now.ended ∧
        (call, Outcome.unrouted (.pool (.noPool endpoint))) ∉ now.ended) ∧
      (Attempt.ofCall now.attempts call).length + begun.published.length ≤
        1 + now.published.length ∧
      (∀ outcome, (call, outcome) ∈ now.ended → ∀ later,
        Attempt.ofCall (now.run later).attempts call = Attempt.ofCall now.attempts call) ∧
      ∀ lease, (call, Outcome.leased lease) ∈ now.ended →
        lease.connection ∈ now.cluster.pools.network.opened ∧
          lease.connection.endpoint = lease.endpoint ∧
          ∃ attempt, Attempt.lastOf now.attempts call = some attempt ∧ attempt.key = key ∧
            now.cluster.settings.Owns attempt lease.endpoint := by
  intro begun call now
  have hbegun : begun.Tracked := tracked_run hbuild hpools hstrategy hbefore
  have hnow : now.Tracked := by
    have hevents : ∀ event ∈ before ++ .connect key :: after, event.isShutdown = false := by
      intro event hevent
      rcases List.mem_append.1 hevent with hold | hnew
      · exact hbefore event hold
      · rcases List.mem_cons.1 hnew with rfl | hrest
        · rfl
        · exact hafter event hrest
    have htracked := tracked_run hbuild hpools hstrategy hevents
    rw [run_append] at htracked
    exact htracked
  refine ⟨?_, ?_, ?_, ?_⟩
  · intro endpoint
    constructor
    · intro hended
      cases hnow.notGone call _ hended
    · intro hended
      cases hnow.notGone call _ hended
  · rcases growth_run begun (.connect key :: after) with ⟨-, shown, -, hshown, hversion, -⟩
    have hlength : now.published.length = begun.published.length + shown.length := by
      rw [← List.length_append, ← hshown]
    have hversions : now.cluster.topology.version =
        begun.cluster.topology.version + shown.length := hversion
    have hle : begun.cluster.topology.version ≤ now.cluster.topology.version := by omega
    have hcount : (Attempt.ofCall now.attempts call).length + begun.cluster.topology.version ≤
        now.cluster.topology.version + 1 := by
      apply Attempt.length_ofCall_le hnow.ordered hle
      intro attempt hattempt hcall
      exact ⟨(hbegun.of_connect hnow hattempt hcall).2, (hnow.begun attempt hattempt).2⟩
    omega
  · intro outcome hended later
    have hstart : (start cluster).Orderly := orderly_start hbuild
    have horderly : now.Orderly := orderly_run (orderly_run hstart before) _
    exact ofCall_run horderly hended later
  · intro lease hended
    rcases hnow.leased call lease hended with ⟨hopened, hsite, attempt, hlast, howns⟩
    rcases Attempt.mem_of_lastOf hlast with ⟨hattempt, hcall⟩
    exact ⟨hopened, hsite, attempt, hlast, (hbegun.of_connect hnow hattempt hcall).1, howns⟩

/-- The only node is replaced while a call connects to it; the call is tried again, and gets
a connection to the new node. -/
theorem connects_by_current_views_of_replaced_node : ∃ cluster events,
    (ClusterBuilder.unnamed [.numbered 1]).build (fun _ _ => 0) = .ok cluster ∧
      let site := (Peer.numbered 2).address
      let now := (start cluster).run (.connect (.single (.int 1)) :: events)
      (0, Outcome.leased ⟨site, ⟨1, site⟩, 1⟩) ∈ now.ended ∧
        (Attempt.ofCall now.attempts 0).length = 2 ∧
        ∃ attempt, Attempt.lastOf now.attempts 0 = some attempt ∧
          now.cluster.settings.Owns attempt site := by
  have hbuild := Eq.refl ((ClusterBuilder.unnamed [.numbered 1]).build fun _ _ => 0)
  have hpools : Activator.boundedPool = Activator.boundedPool ∨
      Activator.boundedPool = Activator.noReusePool := .inl rfl
  have hstrategy : ∀ factory, none = some factory → Activator.LibraryStrategy factory := by
    intro factory hsome
    cases hsome
  have hbefore : ∀ event ∈ ([] : List Event), event.isShutdown = false := by decide
  have hafter : ∀ event ∈ [Event.refresh [.numbered 2], .answer (.opened 0),
      .answer (.closed 0 ⟨0, (Peer.numbered 1).address⟩), .answer (.opened 0)],
      event.isShutdown = false := by decide
  have hlaw := connects_by_current_views hbuild hpools hstrategy hbefore hafter
    (.single (.int 1))
  have hleased := hlaw.2.2.2 ⟨(Peer.numbered 2).address, ⟨1, (Peer.numbered 2).address⟩, 1⟩
  rcases hleased (by decide +kernel) with ⟨-, -, attempt, hlast, -, howns⟩
  exact ⟨_, _, hbuild, by decide +kernel, by decide +kernel, attempt, hlast, howns⟩

end History
end RingRouting
