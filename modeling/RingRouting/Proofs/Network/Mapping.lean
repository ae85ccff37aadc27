import RingRouting.Proofs.Network.Disposing
import RingRouting.Proofs.Network.Opening

/-!
# Maps of pools that come about

A map of pools begins without any.  Then pools are made and taken out as members of the cluster
come and go, and whoever holds a pool may ask it for connections, give them back, and dispose
it, while the transport answers at any time.  Whatever happens, and however pools are made, each
endpoint is in the map once and has a pool of its own; also a pool that was disposed stays in
the map until it is taken out.

Main definitions:

- `EndpointPools.Mapped`: each endpoint once, and each with a pool of its own.
- `EndpointPools.ComesAbout`: the maps that there can be.

Main results:

- Theorem `EndpointPools.Mapped.find?_iff`: the entries are what is looked up.
- Theorem `EndpointPools.ComesAbout.mapped`: all maps that there can be are of this kind.
-/

namespace RingRouting
namespace EndpointPools

variable {Purpose : Type} {pools : EndpointPools Purpose}

/-! ## Entries and their pools -/

/-- Each endpoint is in the map once, each has a pool of its own, which there is, and the
calls that wait have different numbers, all given out before. -/
structure Mapped (pools : EndpointPools Purpose) : Prop where
  endpoints_nodup : pools.endpoints.Nodup
  ids_nodup : pools.ids.Nodup
  found : ∀ id ∈ pools.ids, id < pools.network.pools.length
  numbered : pools.network.Numbered []

namespace Mapped

/-- The pool of an endpoint is that of its entry. -/
theorem find?_iff (h : pools.Mapped) {endpoint : Address} {id : PoolId} :
    pools.find? endpoint = some id ↔ (endpoint, id) ∈ pools.entries := by
  constructor
  · exact mem_entries_of_find?
  · intro hmem
    obtain ⟨found, hfound⟩ := exists_find? (List.mem_map.2 ⟨_, hmem, rfl⟩)
    have hone : (endpoint, found) = (endpoint, id) :=
      List.inj_on_of_nodup_map h.endpoints_nodup (mem_entries_of_find? hfound) hmem rfl
    rw [hfound, (Prod.mk.inj hone).2]

theorem exists_pool (h : pools.Mapped) {endpoint : Address} {id : PoolId}
    (hfind : pools.find? endpoint = some id) : ∃ pool, pools.pool? id = some pool :=
  ⟨_, List.getElem?_eq_getElem (h.found id (List.mem_map.2 ⟨_, h.find?_iff.1 hfind, rfl⟩))⟩

/-- A pool is that of an endpoint that is not kept if it is taken out. -/
theorem mem_dropped_iff (h : pools.Mapped) {keep : Address → Bool} {endpoint : Address}
    {id : PoolId} (hfind : pools.find? endpoint = some id) :
    id ∈ pools.dropped keep ↔ keep endpoint = false := by
  have hmem := h.find?_iff.1 hfind
  constructor
  · intro hdropped
    obtain ⟨entry, hentry, hsame⟩ := List.mem_map.1 hdropped
    obtain ⟨hin, hnot⟩ := List.mem_filter.1 hentry
    have hone : entry = (endpoint, id) := List.inj_on_of_nodup_map h.ids_nodup hin hmem hsame
    rw [hone] at hnot
    simpa using hnot
  · intro hnot
    exact List.mem_map.2 ⟨_, List.mem_filter.2 ⟨hmem, by simp [hnot]⟩, rfl⟩

/-- New pools of endpoints that have none. -/
theorem grown (h : pools.Mapped) {opened : List Address} {made : List Pool}
    (hnodup : opened.Nodup) (hnew : ∀ endpoint ∈ opened, endpoint ∉ pools.endpoints)
    (hlength : opened.length = made.length) : (pools.grown opened made).Mapped where
  endpoints_nodup := by
    rw [endpoints, EndpointPools.grown, List.map_append, List.zipIdx_map_fst]
    exact h.endpoints_nodup.append hnodup fun endpoint hold hadded => hnew endpoint hadded hold
  ids_nodup := by
    rw [ids, EndpointPools.grown, List.map_append, List.zipIdx_map_snd]
    apply h.ids_nodup.append List.nodup_range'
    intro id hold hadded
    exact Nat.not_lt_of_le (List.mem_range'_1.1 hadded).1 (h.found id hold)
  found := by
    intro id hid
    rw [ids, EndpointPools.grown, List.map_append, List.zipIdx_map_snd, List.mem_append] at hid
    simp only [EndpointPools.grown, List.length_append]
    rcases hid with hold | hadded
    · exact Nat.lt_add_right _ (h.found id hold)
    · rw [← hlength]
      exact (List.mem_range'_1.1 hadded).2
  numbered := h.numbered.congr rfl rfl

/-- Entries may be taken out, and pools may change but must stay. -/
theorem of_sublist {after : EndpointPools Purpose} (h : pools.Mapped)
    (hentries : after.entries.Sublist pools.entries)
    (hlength : after.network.pools.length = pools.network.pools.length)
    (hnumbered : after.network.Numbered []) : after.Mapped where
  endpoints_nodup := h.endpoints_nodup.sublist (hentries.map _)
  ids_nodup := h.ids_nodup.sublist (hentries.map _)
  found := by
    intro id hid
    rw [hlength]
    exact h.found id ((hentries.map _).subset hid)
  numbered := hnumbered

theorem newCall (h : pools.Mapped) : pools.newCall.2.Mapped :=
  h.of_sublist (List.Sublist.refl _) rfl h.numbered.newCall.finish

end Mapped

/-! ## Whatever happens -/

/-- The maps that there can be. -/
inductive ComesAbout : EndpointPools Purpose → Prop
  | new (capacity : Nat) (factory : Factory PoolArgs Pool) : ComesAbout (.new capacity factory)
  | openMissing {pools : EndpointPools Purpose} (h : ComesAbout pools) (view : ClusterView) :
      ComesAbout (pools.openMissing view).2
  | retireAbsent {pools : EndpointPools Purpose} (h : ComesAbout pools) (purpose : Purpose)
      (view : ClusterView) : ComesAbout (pools.retireAbsent purpose view).2.1
  | disposeAll {pools : EndpointPools Purpose} (h : ComesAbout pools) (purpose : Purpose) :
      ComesAbout (pools.disposeAll purpose).2.1
  /-- Somebody who holds a pool asks it for a connection. -/
  | acquire {pools : EndpointPools Purpose} (h : ComesAbout pools) (purpose : Purpose)
      (id : PoolId) :
      ComesAbout { pools with network := (pools.network.acquire purpose id).2.1 }
  | release {pools : EndpointPools Purpose} (h : ComesAbout pools) (purpose : Purpose)
      (id : PoolId) (connection : Connection) :
      ComesAbout { pools with network := (pools.network.release purpose id connection).2.1 }
  | dispose {pools : EndpointPools Purpose} (h : ComesAbout pools) (purpose : Purpose)
      (ids : List PoolId) :
      ComesAbout { pools with network := (pools.network.dispose purpose ids).2.1 }
  /-- The transport answers. -/
  | complete {pools : EndpointPools Purpose} (h : ComesAbout pools) (completion : Completion) :
      ComesAbout { pools with network := (pools.network.complete completion).1 }

theorem mapped_new (capacity : Nat) (factory : Factory PoolArgs Pool) :
    (EndpointPools.new capacity factory : EndpointPools Purpose).Mapped where
  endpoints_nodup := List.nodup_nil
  ids_nodup := List.nodup_nil
  found := fun _ h => absurd h List.not_mem_nil
  numbered := ⟨List.nodup_nil, fun _ h => absurd h List.not_mem_nil⟩

theorem Mapped.openMissing (h : pools.Mapped) (view : ClusterView) :
    (pools.openMissing view).2.Mapped := by
  refine openMissingFor_induction Mapped ?_ view.addresses pools h
  intro current endpoint after hcurrent hnew hopen
  obtain ⟨pool, -, rfl⟩ := openPool_eq_ok hopen
  have hgrown : (current.grown [endpoint] [pool]).Mapped :=
    hcurrent.grown (List.nodup_singleton endpoint) (List.forall_mem_singleton.2 hnew) rfl
  exact hgrown

/-- A call that disposes pools, which may have been taken out of the map. -/
theorem Mapped.disposeAs {after : EndpointPools Purpose} (h : pools.Mapped)
    (hentries : after.entries.Sublist pools.entries) {purpose : Purpose} {ids : List PoolId}
    (hnetwork : after.network =
      (pools.network.newCall.2.disposeAs pools.network.nextCall purpose ids).1) :
    after.Mapped := by
  refine h.of_sublist hentries ?_ ?_
  · rw [hnetwork]
    exact Network.length_disposeAs _ _ _ _
  · rw [hnetwork]
    exact h.numbered.newCall.disposed (Network.disposed _ _ purpose ids)

/-- Each endpoint is in the map once and has a pool of its own, whatever has happened. -/
theorem ComesAbout.mapped (h : pools.ComesAbout) : pools.Mapped := by
  induction h with
  | new capacity factory => exact mapped_new capacity factory
  | openMissing _ view ih => exact ih.openMissing view
  | retireAbsent _ purpose view ih => exact ih.disposeAs List.filter_sublist rfl
  | disposeAll _ purpose ih => exact ih.disposeAs (List.nil_sublist _) rfl
  | dispose _ purpose ids ih => exact ih.disposeAs (List.Sublist.refl _) rfl
  | @acquire pools _ purpose id ih =>
      have hresult := Network.acquired pools.network.newCall.2 pools.network.nextCall purpose id
      exact ih.of_sublist (List.Sublist.refl _)
        (Network.length_pools_of_standings hresult.standings)
        (ih.numbered.newCall.acquired hresult)
  | @release pools _ purpose id connection ih =>
      have hstandings := Network.standings_releaseAs pools.network.newCall.2
        pools.network.nextCall purpose id connection
      exact ih.of_sublist (List.Sublist.refl _) (Network.length_pools_of_standings hstandings)
        (ih.numbered.newCall.releaseAs purpose id connection)
  | @complete pools _ completion ih =>
      have hresult := pools.network.completed completion
      exact ih.of_sublist (List.Sublist.refl _) (congrArg List.length hresult.pools)
        (ih.numbered.completed hresult).finishAll

end EndpointPools
end RingRouting
