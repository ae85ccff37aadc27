import Mathlib.Data.List.Perm.Basic
import RingRouting.Proofs.Network.Mapping

/-!
# Pools that follow the cluster

When pools follow a view, first the members that have no pool get one, then the pools of all
other endpoints are taken out and disposed.  Whoever had a pool and stays has the same pool as
before, whatever it keeps and whether it is disposed; the new pools keep nothing; and of all
connections those that the removed pools kept are closed, each of them once.  To follow the same
view again changes nothing.

Main definitions:

- `EndpointPools.FromLibrary`: pools are made as this library makes them.
- `EndpointPools.stranded`: the connections kept for endpoints that are no members of a view.
- `EndpointPools.Followed`: what following a view does to the map and to each pool.

Main results:

- Theorem `EndpointPools.Mapped.followed`: what becomes of the map and of each pool.
- Theorem `EndpointPools.Mapped.drained_perm`: which connections are closed.
- Theorem `EndpointPools.again_of_endpoints_perm`: following the same view again.
- Theorem `EndpointPools.following_touches_what_left`: all laws of following a view.
-/

namespace RingRouting

/-- A pool that was just made for an endpoint. -/
structure Pool.FreshFor (pool : Pool) (endpoint : Address) : Prop where
  endpoint_eq : pool.endpoint = endpoint
  idle_eq : pool.idle = []
  live : pool.disposed = false

namespace EndpointPools

variable {Purpose : Type} {pools : EndpointPools Purpose} {view : ClusterView}

/-! ## New pools -/

/-- The pools are made as this library makes them. -/
def FromLibrary (pools : EndpointPools Purpose) : Prop :=
  pools.factory = Activator.boundedPool ∨ pools.factory = Activator.noReusePool

theorem FromLibrary.exists_makes (h : pools.FromLibrary) (endpoint : Address) :
    ∃ pool, pools.Makes endpoint pool := by
  rcases h with h | h
  · exact ⟨.bounded endpoint pools.capacity, by rw [Makes, h]; rfl⟩
  · exact ⟨.noReuse endpoint, by rw [Makes, h]; rfl⟩

theorem FromLibrary.fresh (h : pools.FromLibrary) {endpoint : Address} {pool : Pool}
    (hmakes : pools.Makes endpoint pool) : pool.FreshFor endpoint := by
  rcases h with h | h
  · rw [Makes, h] at hmakes
    cases hmakes
    exact ⟨rfl, rfl, rfl⟩
  · rw [Makes, h] at hmakes
    cases hmakes
    exact ⟨rfl, rfl, rfl⟩

/-! ## Following a view -/

/-- The connections kept for endpoints that are no members of a view. -/
def stranded (pools : EndpointPools Purpose) (view : ClusterView) : List Connection :=
  (pools.dropped (isMember view)).flatMap fun id => (pools.pool? id).toList.flatMap Pool.idle

/-- What following a view does to the map and to each pool. -/
structure Followed (pools after : EndpointPools Purpose) (view : ClusterView) : Prop where
  /-- The members have a pool, and nobody else. -/
  endpoints : after.endpoints.Perm view.addresses
  /-- Who had a pool and stays has that pool, which is as it was. -/
  kept : ∀ endpoint id, pools.find? endpoint = some id → endpoint ∈ view.addresses →
    after.find? endpoint = some id ∧ after.pool? id = pools.pool? id
  /-- Who had none has a new pool. -/
  fresh : ∀ endpoint ∈ view.addresses, pools.find? endpoint = none →
    ∃ id pool, pools.pool? id = none ∧ after.find? endpoint = some id ∧
      after.pool? id = some pool ∧ pool.FreshFor endpoint
  /-- The pool of one who left is taken out and disposed, and keeps nothing. -/
  retired : ∀ endpoint id, pools.find? endpoint = some id → endpoint ∉ view.addresses →
    after.find? endpoint = none ∧
      ∃ pool, after.pool? id = some pool ∧ pool.disposed = true ∧ pool.idle = []
  /-- Pools that were taken out before stay as they are. -/
  others : ∀ id pool, id ∉ pools.ids → pools.pool? id = some pool →
    after.pool? id = some pool

/-- Only the map and the pools matter. -/
theorem Followed.congr {after other : EndpointPools Purpose} (h : pools.Followed after view)
    (hentries : other.entries = after.entries)
    (hpools : other.network.pools = after.network.pools) : pools.Followed other view where
  endpoints := by simpa only [EndpointPools.endpoints, hentries] using h.endpoints
  kept := by simpa only [find?, pool?, hentries, hpools] using h.kept
  fresh := by simpa only [find?, pool?, hentries, hpools] using h.fresh
  retired := by simpa only [find?, pool?, hentries, hpools] using h.retired
  others := by simpa only [pool?, hpools] using h.others

/-- That a call was numbered does not matter either. -/
theorem Followed.of_newCall {after : EndpointPools Purpose}
    (h : pools.newCall.2.Followed after view) : pools.Followed after view :=
  ⟨h.endpoints, h.kept, h.fresh, h.retired, h.others⟩

/-- The map and the pools once those of others than members are taken out and disposed. -/
def pruned (pools : EndpointPools Purpose) (view : ClusterView) : EndpointPools Purpose :=
  pools.keeping (isMember view) (pools.network.disposePools (pools.dropped (isMember view))).2

theorem pool?_pruned (pools : EndpointPools Purpose) (view : ClusterView) (id : PoolId) :
    (pools.pruned view).pool? id =
      if id ∈ pools.dropped (isMember view) then
        (pools.pool? id).map fun pool => pool.dispose.2
      else pools.pool? id :=
  Network.disposePools_pools _ _ id

theorem mem_entries_pruned {endpoint : Address} {id : PoolId} :
    (endpoint, id) ∈ (pools.pruned view).entries ↔
      (endpoint, id) ∈ pools.entries ∧ endpoint ∈ view.addresses := by
  rw [← view.isMember_iff]
  exact List.mem_filter

theorem Mapped.pruned (h : pools.Mapped) (view : ClusterView) : (pools.pruned view).Mapped := by
  refine h.of_sublist List.filter_sublist (Network.length_disposePools _ _) ?_
  rw [EndpointPools.pruned, EndpointPools.keeping, Network.disposePools_eq]
  exact h.numbered.congr rfl rfl

/-- A pool that stays is as it was. -/
theorem Mapped.pruned_kept (h : pools.Mapped) {endpoint : Address} {id : PoolId}
    (hfind : pools.find? endpoint = some id) (hmember : endpoint ∈ view.addresses) :
    (pools.pruned view).find? endpoint = some id ∧
      (pools.pruned view).pool? id = pools.pool? id := by
  have hstays : id ∉ pools.dropped (isMember view) := by
    rw [h.mem_dropped_iff hfind, (view.isMember_iff endpoint).2 hmember]
    exact Bool.noConfusion
  constructor
  · rw [(h.pruned view).find?_iff, mem_entries_pruned]
    exact ⟨h.find?_iff.1 hfind, hmember⟩
  · rw [pool?_pruned, if_neg hstays]

/-- A pool that is taken out is disposed. -/
theorem Mapped.pruned_retired (h : pools.Mapped) {endpoint : Address} {id : PoolId}
    (hfind : pools.find? endpoint = some id) (hleft : endpoint ∉ view.addresses) :
    (pools.pruned view).find? endpoint = none ∧
      ∃ pool, (pools.pruned view).pool? id = some pool ∧ pool.disposed = true ∧
        pool.idle = [] := by
  have hgoes : id ∈ pools.dropped (isMember view) := by
    rw [h.mem_dropped_iff hfind]
    exact Bool.eq_false_iff.2 (mt (view.isMember_iff endpoint).1 hleft)
  obtain ⟨pool, hpool⟩ := h.exists_pool hfind
  constructor
  · rw [Option.eq_none_iff_forall_ne_some]
    intro other hother
    exact hleft (mem_entries_pruned.1 ((h.pruned view).find?_iff.1 hother)).2
  · refine ⟨pool.dispose.2, ?_, pool.dispose_disposed, pool.dispose_idle⟩
    rw [pool?_pruned, if_pos hgoes, hpool]
    rfl

theorem mem_lacking_iff {endpoints : List Address} {endpoint : Address} :
    endpoint ∈ pools.lacking endpoints ↔
      endpoint ∈ endpoints ∧ pools.find? endpoint = none := by
  simp [lacking, List.mem_filter, Option.isNone_iff_eq_none]

/-- New pools of members are not taken out. -/
theorem dropped_grown (pools : EndpointPools Purpose) (view : ClusterView) (made : List Pool) :
    (pools.grown (pools.lacking view.addresses) made).dropped (isMember view) =
      pools.dropped (isMember view) := by
  have hnone : ((pools.lacking view.addresses).zipIdx pools.network.pools.length).filter
      (fun entry => !isMember view entry.1) = [] := by
    rw [List.filter_eq_nil_iff]
    intro entry hentry
    have hin := (mem_lacking_iff.1 (List.fst_mem_of_mem_zipIdx hentry)).1
    simp [(view.isMember_iff entry.1).2 hin]
  rw [dropped, grown, List.filter_append, hnone, List.append_nil, dropped]

/-- The pool that was made for an endpoint is its pool. -/
theorem Mapped.exists_fresh {opened : List Address} {made : List Pool}
    (hgrown : (pools.grown opened made).Mapped)
    (hmade : List.Forall₂ (fun endpoint pool => Pool.FreshFor pool endpoint) opened made)
    {endpoint : Address} (hin : endpoint ∈ opened) :
    ∃ id pool, pools.pool? id = none ∧ (pools.grown opened made).find? endpoint = some id ∧
      (pools.grown opened made).pool? id = some pool ∧ pool.FreshFor endpoint := by
  obtain ⟨place, hplace, rfl⟩ := List.mem_iff_getElem.1 hin
  have hmadePlace : place < made.length := hmade.length_eq ▸ hplace
  refine ⟨pools.network.pools.length + place, made[place], ?_, ?_, ?_,
    hmade.get hplace hmadePlace⟩
  · exact List.getElem?_eq_none (Nat.le_add_right _ _)
  · rw [hgrown.find?_iff]
    apply List.mem_append_right
    rw [List.mk_mem_zipIdx_iff_le_and_getElem?_sub, Nat.add_sub_cancel_left]
    exact ⟨Nat.le_add_right _ _, List.getElem?_eq_getElem hplace⟩
  · rw [pool?, EndpointPools.grown, List.getElem?_append_right (Nat.le_add_right _ _),
      Nat.add_sub_cancel_left]
    exact List.getElem?_eq_getElem hmadePlace

/-- Members that had no pool get one, and then those of others are taken out. -/
theorem Mapped.followed (h : pools.Mapped) {made : List Pool}
    (hmade : List.Forall₂ (fun endpoint pool => Pool.FreshFor pool endpoint)
      (pools.lacking view.addresses) made) :
    let grown := pools.grown (pools.lacking view.addresses) made
    grown.Mapped ∧ pools.Followed (grown.pruned view) view := by
  intro grown
  have hgrown : grown.Mapped := by
    refine h.grown (view.addresses_nodup.filter _) ?_ hmade.length_eq
    intro endpoint hin hold
    obtain ⟨id, hid⟩ := exists_find? hold
    rw [(mem_lacking_iff.1 hin).2] at hid
    cases hid
  have hkept : ∀ endpoint id, pools.find? endpoint = some id → endpoint ∈ view.addresses →
      (grown.pruned view).find? endpoint = some id ∧
        (grown.pruned view).pool? id = pools.pool? id := by
    intro endpoint id hfind hmember
    obtain ⟨pool, hpool⟩ := h.exists_pool hfind
    have hsame := hgrown.pruned_kept (find?_grown hfind _ _) hmember
    rw [pool?_grown hpool] at hsame
    exact ⟨hsame.1, hsame.2.trans hpool.symm⟩
  have hfresh : ∀ endpoint ∈ view.addresses, pools.find? endpoint = none →
      ∃ id pool, pools.pool? id = none ∧ (grown.pruned view).find? endpoint = some id ∧
        (grown.pruned view).pool? id = some pool ∧ pool.FreshFor endpoint := by
    intro endpoint hmember hnone
    obtain ⟨id, pool, hnew, hfind, hpool, hempty⟩ :=
      hgrown.exists_fresh hmade (mem_lacking_iff.2 ⟨hmember, hnone⟩)
    obtain ⟨hfound, hsame⟩ := hgrown.pruned_kept hfind hmember
    exact ⟨id, pool, hnew, hfound, hsame.trans hpool, hempty⟩
  refine ⟨hgrown, ?_, hkept, hfresh, ?_, ?_⟩
  · refine (List.perm_ext_iff_of_nodup (hgrown.pruned view).endpoints_nodup
      view.addresses_nodup).2 fun endpoint => ?_
    constructor
    · intro hin
      obtain ⟨id, hid⟩ := exists_find? hin
      exact (mem_entries_pruned.1 (mem_entries_of_find? hid)).2
    · intro hmember
      rw [← find?_isSome_iff]
      cases hfind : pools.find? endpoint with
      | some id => rw [(hkept endpoint id hfind hmember).1]; rfl
      | none =>
          obtain ⟨id, pool, -, hfound, -⟩ := hfresh endpoint hmember hfind
          rw [hfound]
          rfl
  · intro endpoint id hfind hleft
    exact hgrown.pruned_retired (find?_grown hfind _ _) hleft
  · intro id pool hout hpool
    have hstays : id ∉ grown.dropped (isMember view) := by
      rw [dropped_grown]
      exact fun hin => hout ((List.filter_sublist.map _).subset hin)
    rw [pool?_pruned, if_neg hstays, pool?_grown hpool]

/-- The library makes a pool for every member that has none. -/
theorem FromLibrary.openMissing (h : pools.FromLibrary) (view : ClusterView) :
    ∃ made, List.Forall₂ (fun endpoint pool => Pool.FreshFor pool endpoint)
        (pools.lacking view.addresses) made ∧
      pools.openMissing view = (.ok (), pools.grown (pools.lacking view.addresses) made) := by
  have hopened : pools.OpenedFor (pools.lacking view.addresses) (pools.openMissing view) :=
    openedFor view.addresses_nodup pools
  generalize pools.lacking view.addresses = lacking at hopened ⊢
  generalize pools.openMissing view = result at hopened ⊢
  cases hopened with
  | all hmade => exact ⟨_, hmade.imp fun _ _ => h.fresh, rfl⟩
  | @refused _ _ endpoint _ _ _ hrefused =>
      obtain ⟨pool, hpool⟩ := h.exists_makes endpoint
      rw [Makes, hrefused] at hpool
      cases hpool

/-- The connections that the pools of others than members have closed, in order. -/
def drained (pools : EndpointPools Purpose) (view : ClusterView) : List Connection :=
  (pools.network.disposePools (pools.dropped (isMember view))).1

/-- Taking out the pools of others has exactly the stranded connections closed. -/
theorem Mapped.drained_perm (h : pools.Mapped) (view : ClusterView) (made : List Pool) :
    ((pools.grown (pools.lacking view.addresses) made).drained view).Perm
      (pools.stranded view) := by
  have hnodup : (pools.dropped (isMember view)).Nodup :=
    h.ids_nodup.sublist (List.filter_sublist.map _)
  rw [drained, dropped_grown, Network.disposePools_drained hnodup]
  refine List.Perm.flatMap_left _ fun id hid => ?_
  have hlt : id < pools.network.pools.length :=
    h.found id ((List.filter_sublist.map _).subset hid)
  have hpool : pools.pool? id = some pools.network.pools[id] := List.getElem?_eq_getElem hlt
  have hsame : (pools.grown (pools.lacking view.addresses) made).network.pools[id]? =
      some pools.network.pools[id] := pool?_grown hpool _ made
  rw [hsame, hpool]
  simp [List.reverse_perm]

/-- To retire the pools of others is to take them out and to close what they kept. -/
theorem retireAbsent_eq (pools : EndpointPools Purpose) (purpose : Purpose)
    (view : ClusterView) :
    pools.retireAbsent purpose view =
      let after := pools.newCall.2.pruned view
      let closing := after.network.closeAll pools.network.nextCall purpose
        (pools.newCall.2.drained view)
      (pools.network.nextCall, { after with network := closing.1 }, closing.2) :=
  rfl

/-- The call that retires the pools of others ends when all they kept is closed; of the
network, only pools and the record of what is closed have changed then. -/
theorem completeAll_retireAbsent (h : pools.network.Numbered []) (purpose : Purpose)
    {order : List Connection} (hperm : order.Perm (pools.newCall.2.drained view)) :
    let retired := pools.retireAbsent purpose view
    let answered := retired.2.1.network.completeAll
      (order.map fun connection => .closed retired.1 connection)
    answered.1 =
        { pools.newCall.2.network with
          pools := (pools.newCall.2.pruned view).network.pools
          closed := pools.network.closed ++ order } ∧
      retired.2.2.finished ++ answered.2.finished = [⟨retired.1, purpose, .done⟩] := by
  rw [retireAbsent_eq]
  have hpruned : (pools.newCall.2.pruned view).network =
      { pools.newCall.2.network with pools := (pools.newCall.2.pruned view).network.pools } :=
    Network.disposePools_eq _ _
  have hnew : pools.network.nextCall ∉ (pools.newCall.2.pruned view).network.callIds := by
    rw [hpruned]
    intro hwaits
    exact Nat.lt_irrefl _ (h.below _ (List.mem_append_left _ hwaits))
  obtain ⟨hnetwork, hfinished⟩ := Network.completeAll_closeAll hnew purpose hperm
  refine ⟨hnetwork.trans ?_, hfinished⟩
  rw [Network.withAllClosed, hpruned]
  rfl

/-! ## Following the same view again -/

/-- Where all have a pool, none is made. -/
theorem openMissingFor_of_lacking_nil {endpoints : List Address}
    (h : pools.lacking endpoints = []) : pools.openMissingFor endpoints = (.ok (), pools) := by
  induction endpoints with
  | nil => rfl
  | cons endpoint rest ih =>
      rw [lacking, List.filter_eq_nil_iff] at h
      have hsome : (pools.find? endpoint).isSome = true := by
        simpa [Option.isSome_iff_ne_none] using h endpoint List.mem_cons_self
      rw [openMissingFor, if_pos hsome]
      apply ih
      rw [lacking, List.filter_eq_nil_iff]
      exact fun other hother => h other (List.mem_cons_of_mem _ hother)

/-- Where the members alone have pools, to follow the view makes none and disposes none. -/
theorem again_of_endpoints_perm (h : pools.endpoints.Perm view.addresses) (purpose : Purpose) :
    pools.openMissing view = (.ok (), pools) ∧
      pools.retireAbsent purpose view =
        (pools.network.nextCall, pools.newCall.2,
          .finish pools.network.nextCall purpose .done) := by
  constructor
  · apply openMissingFor_of_lacking_nil
    rw [lacking, List.filter_eq_nil_iff]
    intro endpoint hmember
    have hsome := (find?_isSome_iff pools endpoint).2 (h.mem_iff.2 hmember)
    simpa [Option.isSome_iff_ne_none] using hsome
  · have hall : ∀ entry ∈ pools.entries, isMember view entry.1 = true := fun entry hentry =>
      (view.isMember_iff entry.1).2 (h.mem_iff.1 (List.mem_map.2 ⟨entry, hentry, rfl⟩))
    have hkept : (pools.entries.filter fun entry => isMember view entry.1) = pools.entries :=
      List.filter_eq_self.2 hall
    have hdropped : (pools.entries.filter fun entry => !isMember view entry.1) = [] :=
      List.filter_eq_nil_iff.2 fun entry hentry => by simp [hall entry hentry]
    simp only [retireAbsent, newCall, retireAbsentAs, hkept, hdropped, List.map_nil]
    rfl

/-! ## All laws -/

/-- Making pools for the members and retiring the others touches what has left alone.  The
calls' requests are those to close what the retired pools kept, and however the transport
orders its answers, the call ends with the last of them. -/
theorem following_touches_what_left (hmapped : pools.Mapped) (hlibrary : pools.FromLibrary)
    (purpose : Purpose) (view : ClusterView) :
    let opened := pools.openMissing view
    let retired := opened.2.retireAbsent purpose view
    opened.1 = .ok () ∧ pools.Followed retired.2.1 view ∧
      (∃ asked : List Connection, asked.Perm (pools.stranded view) ∧
        retired.2.2.requests = asked.map fun connection => .closing retired.1 connection) ∧
      ∀ order : List Connection, order.Perm (pools.stranded view) →
        let answered := retired.2.1.network.completeAll
          (order.map fun connection => .closed retired.1 connection)
        let done := { retired.2.1 with network := answered.1 }
        retired.2.2.finished ++ answered.2.finished = [⟨retired.1, purpose, .done⟩] ∧
          pools.Followed done view ∧
          done.network.closed = pools.network.closed ++ order ∧
          done.network.opened = pools.network.opened ∧
          done.network.calls = pools.network.calls ∧
          done.Mapped ∧
          done.openMissing view = (.ok (), done) ∧
          ∀ another : Purpose, done.retireAbsent another view =
            (done.network.nextCall, done.newCall.2,
              .finish done.network.nextCall another .done) := by
  obtain ⟨made, hmade, hopened⟩ := hlibrary.openMissing view
  -- the number of the call may as well be given out before the pools are made
  obtain ⟨hgrown, hfollowed⟩ := hmapped.newCall.followed hmade
  have hdrained := hmapped.newCall.drained_perm view made
  rw [hopened]
  refine ⟨rfl, ?_, ⟨_, hdrained, Network.closeAll_requests _ _ _ _⟩, ?_⟩
  · apply hfollowed.of_newCall.congr
    · rfl
    · exact Network.closeAll_pools _ _ _ _
  · intro order horder answered done
    have hnumbered : (pools.grown (pools.lacking view.addresses) made).network.Numbered [] :=
      hmapped.numbered.congr rfl rfl
    obtain ⟨hanswered, hfinished⟩ :=
      completeAll_retireAbsent hnumbered purpose (horder.trans hdrained.symm)
    have hfollows : pools.Followed done view := by
      apply hfollowed.of_newCall.congr
      · rfl
      · exact (congrArg Network.pools hanswered :)
    have hmappedDone : done.Mapped := by
      refine hgrown.of_sublist List.filter_sublist ?_ ?_
      · exact (congrArg (fun network => network.pools.length) hanswered).trans
          (Network.length_disposePools _ _)
      · change answered.1.Numbered []
        rw [hanswered]
        exact hgrown.numbered.congr rfl rfl
    refine ⟨hfinished, hfollows, (congrArg Network.closed hanswered :),
      (congrArg Network.opened hanswered :), (congrArg Network.calls hanswered :),
      hmappedDone, ?_, ?_⟩
    · exact (again_of_endpoints_perm hfollows.endpoints purpose).1
    · exact fun another => (again_of_endpoints_perm hfollows.endpoints another).2

/-- Of three endpoints one stays and one joins; the pools of the two that leave keep three
connections, which are closed in another order than asked for. -/
theorem following_touches_what_left_of_three_pools :
    ∃ (pools done : EndpointPools Unit) (view : ClusterView) (order : List Connection),
      pools.Mapped ∧ pools.FromLibrary ∧ pools.endpoints.length = 3 ∧
      order.Perm (pools.stranded view) ∧ order.length = 3 ∧
      (∃ endpoint ∈ view.addresses, pools.find? endpoint = none) ∧
      (∃ endpoint ∈ view.addresses, ∃ id pool, pools.find? endpoint = some id ∧
        done.pool? id = some pool ∧ pool.idle.length = 1) ∧
      pools.Followed done view ∧ done.network.closed = order ∧
      done.network.opened.length = 4 ∧ done.openMissing view = (.ok (), done) := by
  let staying : Address := .ofQuad 10 0 0 1
  let leaving : Address := .ofQuad 10 0 0 2
  let other : Address := .ofQuad 10 0 0 3
  let joining : Address := .ofQuad 10 0 0 4
  let view : ClusterView := .ofReports
    [⟨joining, "dc1", "r1", [⟨4⟩]⟩, ⟨staying, "dc1", "r1", [⟨1⟩]⟩]
  let network : Network Unit :=
    { pools := [⟨staying, .bounded 2 [⟨0, staying⟩], false⟩,
        ⟨leaving, .bounded 2 [⟨2, leaving⟩, ⟨1, leaving⟩], false⟩,
        ⟨other, .bounded 2 [⟨3, other⟩], false⟩]
      calls := [⟨6, (), .opening 1⟩]
      nextCall := 7
      opened := [⟨0, staying⟩, ⟨1, leaving⟩, ⟨2, leaving⟩, ⟨3, other⟩]
      refused := []
      closed := [] }
  let pools : EndpointPools Unit :=
    ⟨2, Activator.boundedPool, [(leaving, 1), (staying, 0), (other, 2)], network⟩
  let order : List Connection := [⟨3, other⟩, ⟨1, leaving⟩, ⟨2, leaving⟩]
  have hmapped : pools.Mapped :=
    ⟨by decide +kernel, by decide +kernel, by decide +kernel, by decide +kernel,
      by decide +kernel⟩
  have hperm : order.Perm (pools.stranded view) := by decide +kernel
  obtain ⟨-, -, -, hlaw⟩ := following_touches_what_left hmapped (.inl rfl) () view
  obtain ⟨-, hfollowed, hclosed, hopened, -, -, hagain, -⟩ := hlaw order hperm
  refine ⟨pools, _, view, order, hmapped, .inl rfl, by decide +kernel, hperm, rfl,
    ⟨joining, by decide +kernel, by decide +kernel⟩,
    ⟨staying, by decide +kernel, 0, ⟨staying, .bounded 2 [⟨0, staying⟩], false⟩, ?_, ?_, rfl⟩,
    hfollowed, hclosed, congrArg List.length hopened, hagain⟩
  · decide +kernel
  · decide +kernel

end EndpointPools
end RingRouting
