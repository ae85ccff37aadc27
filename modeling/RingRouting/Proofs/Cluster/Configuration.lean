import RingRouting.Proofs.Cluster.Planning
import RingRouting.Proofs.Cluster.Refreshing

/-!
# Configurations that are found out

With the policies of the library, what is wrong with a configuration is found out when the
cluster is built.  After that no call tells of an error in the configuration, whatever views the
cluster comes to hold and whatever candidates it comes to rank, and every refresh returns well.

Main results:

- Theorem `Cluster.plan_ne_configuration`: no plan fails for its configuration.
- Theorem `Cluster.Performed.wellConfigured`: no event reports an error in the configuration.
- Theorem `History.misconfiguration_found_at_build`: configuration errors are errors of
  building alone.
-/

namespace RingRouting

/-! ## Routing and refreshing -/

/-- The outcome tells of an error in the configuration. -/
def Outcome.isMisconfigured : Outcome → Bool
  | unrouted (.configuration _) => true
  | unrefreshed _ => true
  | _ => false

/-- No call that a step has ended tells of an error in the configuration. -/
def ClusterProgress.WellConfigured (progress : ClusterProgress) : Prop :=
  ∀ ended ∈ progress.finished, ended.2.isMisconfigured = false

namespace ClusterProgress

theorem WellConfigured.of_nil (requests : List Request) : WellConfigured ⟨requests, []⟩ := by
  intro ended hended
  cases hended

theorem WellConfigured.of_one {requests : List Request} {call : CallId} {outcome : Outcome}
    (h : outcome.isMisconfigured = false) : WellConfigured ⟨requests, [(call, outcome)]⟩ := by
  intro ended hended
  rw [List.mem_singleton.1 hended]
  exact h

end ClusterProgress

namespace Cluster

variable {cluster : Cluster} {call : CallId} {key : PartitionKey}
  {result : Cluster × ClusterProgress}

/-- Planning meets no policy that refuses. -/
theorem plan_ne_configuration (hunfailing : cluster.settings.Unfailing)
    (hbuilt : cluster.SnitchBuilt cluster.topology) (key : PartitionKey)
    (e : ConfigurationError) : (cluster.plan key).1 ≠ .error (.configuration e) := by
  intro hplan
  have hplanned := cluster.planned key
  rw [hplan] at hplanned
  cases hplanned with
  | @configuration token _ _ _ hstrategy =>
      obtain ⟨strategy, hmade⟩ :=
        hunfailing.buildStrategy hbuilt (cluster.rank (cluster.replicas token))
      rw [hmade] at hstrategy
      cases hstrategy

/-- Only planning meets a policy that refuses. -/
theorem Fails.plan_eq {e : ConfigurationError} (h : cluster.Fails key (.configuration e)) :
    (cluster.plan key).1 = .error (.configuration e) := by
  cases h with
  | plan hplan => exact hplan
  | @pick plan _ _ hpick =>
      unfold Plan.pick at hpick
      cases hpicked : plan.strategy.pick.1 with
      | error cause =>
          simp only [hpicked] at hpick
          cases hpick
      | ok endpoint =>
          simp only [hpicked] at hpick
          cases hpick

theorem Attempted.wellConfigured (h : Attempted cluster call key result)
    (hunfailing : cluster.settings.Unfailing)
    (hbuilt : cluster.SnitchBuilt cluster.topology) : result.2.WellConfigured := by
  cases h with
  | missing => exact .of_nil _
  | opening => exact .of_nil _
  | reused => exact .of_one rfl
  | @failed _ _ e hfails =>
      apply ClusterProgress.WellConfigured.of_one
      cases e with
      | configuration cause =>
          exact absurd hfails.plan_eq (plan_ne_configuration hunfailing hbuilt key cause)
      | _ => rfl

theorem Refreshed.wellConfigured {view : ClusterView} (h : Refreshed cluster call view result)
    (hunfailing : cluster.settings.Unfailing) : result.2.WellConfigured := by
  obtain ⟨topology, network, outcome, -, hresult⟩ := h.published_of_unfailing hunfailing
  rcases hresult with ⟨requests, -, rfl⟩ | ⟨-, rfl⟩
  · exact .of_nil _
  · obtain ⟨queue, requests, hend⟩ :=
      (cluster.withView view topology network).endRefresh_eq call .refreshed
    rw [hend]
    exact .of_one rfl

theorem Absorbed.wellConfigured {ended : Finished Purpose} (h : Absorbed cluster ended result)
    (hunfailing : cluster.settings.Unfailing)
    (hbuilt : cluster.SnitchBuilt cluster.topology) : result.2.WellConfigured := by
  cases h with
  | direct =>
      apply ClusterProgress.WellConfigured.of_one
      cases ended.outcome <;> rfl
  | concluded =>
      cases ended.outcome <;> exact .of_one rfl
  | replanned _ _ _ hattempted => exact hattempted.wellConfigured hunfailing hbuilt
  | refresh =>
      obtain ⟨queue, requests, hend⟩ := cluster.endRefresh_eq ended.call .refreshed
      rw [hend]
      exact .of_one rfl

/-- Where no policy refuses, no event tells of an error in the configuration. -/
theorem Performed.wellConfigured {event : Event} (h : Performed cluster event result)
    (hunfailing : cluster.settings.Unfailing)
    (hbuilt : cluster.SnitchBuilt cluster.topology) : result.2.WellConfigured := by
  cases h with
  | plan => exact .of_nil _
  | queued => exact .of_nil _
  | connect hattempted => exact hattempted.wellConfigured hunfailing hbuilt
  | release hreleased =>
      cases hreleased with
      | missing => exact .of_nil _
      | closing => exact .of_nil _
      | kept => exact .of_one rfl
  | refresh _ hrefreshed => exact hrefreshed.wellConfigured hunfailing
  | shutdown hshutDown =>
      cases hshutDown with
      | quiet => exact .of_one rfl
      | closing => exact .of_nil _
  | answer hanswered =>
      cases hanswered with
      | ignored => exact .of_nil _
      | waits => exact .of_nil _
      | turn _ _ hrefreshed => exact hrefreshed.wellConfigured hunfailing
      | ends _ _ habsorbed => exact habsorbed.wellConfigured hunfailing hbuilt

end Cluster

namespace History

/-- In a run of events no call that ends tells of an error in the configuration. -/
theorem wellConfigured_run {history : History} (h : history.Settled)
    (hbuilt : history.cluster.SnitchBuilt history.cluster.topology)
    (hended : ∀ ended ∈ history.ended, ended.2.isMisconfigured = false) (events : List Event) :
    ∀ ended ∈ (history.run events).ended, ended.2.isMisconfigured = false := by
  refine (run_induction (fun later => later.Settled ∧
    later.cluster.SnitchBuilt later.cluster.topology ∧
      ∀ ended ∈ later.ended, ended.2.isMisconfigured = false)
    (fun _ => True) ?_ ⟨h, hbuilt, hended⟩ (fun _ _ => trivial)).2.2
  rintro later event - ⟨hsettled, hsnitch, hbefore⟩ -
  have hperformed := later.cluster.performed event
  refine ⟨hsettled.extend event, hperformed.snitchBuilt hsnitch, ?_⟩
  intro ended hmem
  rcases List.mem_append.1 hmem with hold | hnew
  · exact hbefore ended hold
  · exact hperformed.wellConfigured hsettled.unfailing hsnitch ended hnew

/-- With the policies of the library a cluster can be built exactly if the configuration is
sound.  Once it is built, no plan, no connect call and no refresh reports an error in the
configuration, whatever has happened to the cluster; every refresh that was begun has
returned well or is under way, and some answers let all of them return. -/
theorem misconfiguration_found_at_build {builder : ClusterBuilder}
    (hactivator : builder.activator = .defaults) (entropy : Nat → Nat → UInt32) :
    ((∃ cluster, builder.build entropy = .ok cluster) ↔ builder.config.Sound) ∧
      ∀ cluster, builder.build entropy = .ok cluster → ∀ events,
        let now := (start cluster).run events
        (∀ key e, (now.cluster.plan key).1 ≠ .error (.configuration e)) ∧
          (∀ call e, (call, Outcome.unrouted (.configuration e)) ∉ now.ended) ∧
          (∀ call e, (call, Outcome.unrefreshed e) ∉ now.ended) ∧
          ((start cluster).begun events).Perm (now.refreshed ++ now.cluster.refreshing) ∧
          ∃ answers : List Completion,
            ((start cluster).begun events).Perm (now.run (answers.map .answer)).refreshed := by
  refine ⟨ClusterBuilder.build_ok_iff hactivator entropy, ?_⟩
  intro cluster hbuild events now
  have hunfailing := ClusterBuilder.unfailing_of_build hactivator hbuild
  have hsettled := settled_start hbuild hunfailing
  have hnow : now.Settled := hsettled.run events
  have hstart : (start cluster).cluster.SnitchBuilt (start cluster).cluster.topology :=
    (configured_run hbuild []).2
  have hended := wellConfigured_run hsettled hstart (fun _ hmem => by cases hmem) events
  have hperm := refreshes_run hsettled events
  have hnone : (start cluster).refreshed ++ (start cluster).cluster.refreshing = [] :=
    refreshing_start hbuild
  rw [hnone, List.append_nil] at hperm
  refine ⟨?_, ?_, ?_, hperm, ?_⟩
  · exact Cluster.plan_ne_configuration hnow.unfailing (snitchBuilt_run hstart events)
  · intro call e hmem
    exact Bool.noConfusion (hended _ hmem)
  · intro call e hmem
    exact Bool.noConfusion (hended _ hmem)
  · obtain ⟨answers, hreturned⟩ := exists_answers hnow
    exact ⟨answers, hperm.trans hreturned⟩

/-- A strategy that ranks, by a qualified name and with blanks around it: without an address to
measure from no cluster is built; with one, a refresh that waits until a connection is closed
can return. -/
theorem misconfiguration_found_at_build_of_ranking :
    let ranking := (ClusterBuilder.unnamed [.numbered 1]).setAll
      [.snitch "TopologySnitch", .strategy " org.x.NearestStrategy "]
    let located := ranking.set (.origin (Peer.numbered 1).address)
    let events : List Event := [.connect (.single (.int 1)), .answer (.opened 0),
      .release ⟨(Peer.numbered 1).address, ⟨0, (Peer.numbered 1).address⟩, 0⟩,
      .refresh [.numbered 2]]
    (¬ ∃ cluster, ranking.build (fun _ _ => 0) = .ok cluster) ∧
      ∃ cluster, located.build (fun _ _ => 0) = .ok cluster ∧
        let now := (start cluster).run events
        now.refreshed = [] ∧ now.cluster.refreshing = [2] ∧
          ∃ answers : List Completion, (now.run (answers.map .answer)).refreshed = [2] := by
  intro ranking located events
  have hrefused := misconfiguration_found_at_build (rfl : ranking.activator = .defaults)
    fun _ _ => 0
  have hranks : Registry.StandsFor ranking.config.strategy "NearestStrategy" :=
    .inr ⟨"org.x".toList, by decide +kernel, by decide +kernel⟩
  have hcourse : (located.build fun _ _ => 0).map (fun cluster =>
      let now := (start cluster).run events
      ((start cluster).begun events, now.refreshed, now.cluster.refreshing)) =
      .ok ([2], [], [2]) := by
    decide +kernel
  obtain ⟨cluster, hbuild, hfacts⟩ := Except.map_eq_ok hcourse
  obtain ⟨hbegun, hreturned, hrefreshing⟩ := by simpa only [Prod.mk.injEq] using hfacts
  constructor
  · intro hbuilt
    exact ((hrefused.1.1 hbuilt).nearest hranks).2 rfl
  · have hlaw := (misconfiguration_found_at_build (rfl : located.activator = .defaults)
      fun _ _ => 0).2 cluster hbuild events
    obtain ⟨answers, hperm⟩ := hlaw.2.2.2.2
    rw [hbegun] at hperm
    exact ⟨cluster, hbuild, hreturned, hrefreshing, answers,
      (List.singleton_perm.1 hperm).symm⟩

end History
end RingRouting
