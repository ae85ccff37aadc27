import RingRouting.Proofs.Network.Standing

/-!
# Closing what disposed pools kept

Pools are disposed one after another, and what they kept is closed by one call.  The call asks
for all of it at once, takes the answers in any order, and ends with the last of them.

Main definitions:

- `Network.completeAll`: several answers of the transport.
- `Network.withAllClosed`: the network once several connections were closed.

Main results:

- Theorem `Network.disposePools_drained`: disposing has exactly the kept connections closed.
- Theorem `Network.completeAll_closeAll`: closing connections in any order ends the call.
-/

namespace RingRouting
namespace Network

variable {Purpose : Type} {network : Network Purpose} {call : CallId}

/-! ## What disposing has closed -/

/-- Disposing pools has closed what each of them keeps, the first to have come first. -/
theorem disposePools_drained {ids : List PoolId} (hnodup : ids.Nodup)
    (network : Network Purpose) :
    (network.disposePools ids).1 =
      ids.flatMap fun id => (network.pools[id]?).toList.flatMap fun pool => pool.idle.reverse := by
  induction ids generalizing network with
  | nil => rfl
  | cons id rest ih =>
      rw [List.nodup_cons] at hnodup
      rw [disposePools, List.flatMap_cons]
      cases hpool : network.pools[id]? with
      | none => exact ih hnodup.2 network
      | some pool =>
          simp only [ih hnodup.2, Pool.dispose_drained, Option.toList_some,
            List.flatMap_singleton]
          congr 1
          apply List.flatMap_congr
          intro other hother
          have hne : id ≠ other := fun hsame => hnodup.1 (hsame ▸ hother)
          rw [setPool, List.getElem?_set_ne hne]

/-- No pool comes or goes. -/
theorem length_disposePools (ids : List PoolId) (network : Network Purpose) :
    (network.disposePools ids).2.pools.length = network.pools.length := by
  induction ids generalizing network with
  | nil => rfl
  | cons id rest ih =>
      rw [disposePools]
      split
      · exact ih network
      · simp [ih, setPool]

theorem length_disposeAs (network : Network Purpose) (call : CallId) (purpose : Purpose)
    (ids : List PoolId) :
    (network.disposeAs call purpose ids).1.pools.length = network.pools.length := by
  rw [disposeAs, closeAll_pools, length_disposePools]

/-! ## Several answers -/

/-- Takes several answers of the transport, one after another. -/
def completeAll (network : Network Purpose) :
    List Completion → Network Purpose × Progress Purpose
  | [] => (network, .none)
  | answer :: rest =>
    let (next, progress) := network.complete answer
    let (last, others) := next.completeAll rest
    (last, ⟨progress.requests ++ others.requests, progress.finished ++ others.finished⟩)

/-- The network after several connections were closed. -/
def withAllClosed (network : Network Purpose) (connections : List Connection) :
    Network Purpose :=
  { network with closed := network.closed ++ connections }

theorem withAllClosed_withClosed (network : Network Purpose) (connection : Connection)
    (connections : List Connection) :
    (network.withClosed connection).withAllClosed connections =
      network.withAllClosed (connection :: connections) := by
  simp [withAllClosed, withClosed]

theorem call?_suspend (hnew : call ∉ network.callIds) (purpose : Purpose) (wait : Wait) :
    (network.suspend call purpose wait).call? call = some ⟨call, purpose, wait⟩ := by
  have hnone : network.calls.find? (fun waiting => waiting.id == call) = none := by
    rw [List.find?_eq_none]
    intro waiting hwaiting hsame
    exact hnew (List.mem_map.2 ⟨waiting, hwaiting, eq_of_beq hsame⟩)
  simp [call?, suspend, List.find?_append, hnone]

theorem resume_suspend (hnew : call ∉ network.callIds) (purpose : Purpose) (wait : Wait) :
    (network.suspend call purpose wait).resume call = network := by
  have hall : network.calls.filter (fun waiting => waiting.id != call) = network.calls := by
    rw [List.filter_eq_self]
    intro waiting hwaiting
    exact bne_iff_ne.2 fun hsame => hnew (List.mem_map.2 ⟨waiting, hwaiting, hsame⟩)
  simp [resume, suspend, List.filter_append, hall]

/-- Where a call waits for connections to be closed, these can be closed in any order; with the
last one the call ends. -/
theorem completeAll_suspend (hnew : call ∉ network.callIds) (purpose : Purpose)
    {left order : List Connection} (hsome : left ≠ []) (hperm : order.Perm left) :
    (network.suspend call purpose (.closing left)).completeAll
        (order.map fun connection => .closed call connection) =
      (network.withAllClosed order, .finish call purpose .done) := by
  induction order generalizing network left with
  | nil => exact absurd hperm.symm.eq_nil hsome
  | cons connection rest ih =>
      have hmem : connection ∈ left := hperm.mem_iff.1 List.mem_cons_self
      have hrest : rest.Perm (left.erase connection) := by
        simpa using hperm.erase connection
      have hcomplete := @complete_closed _ _ ⟨call, purpose, .closing left⟩ left connection
        (call?_suspend hnew purpose (.closing left)) rfl hmem
      simp only [resume_suspend hnew] at hcomplete
      rw [List.map_cons, completeAll, hcomplete]
      by_cases hlast : left.erase connection = []
      · rw [hlast] at hrest
        rw [hrest.eq_nil, if_pos (List.isEmpty_iff.2 hlast)]
        rfl
      · have hothers := @ih (network.withClosed connection) hnew _ hlast hrest
        rw [if_neg (mt List.isEmpty_iff.1 hlast)]
        simp only [hothers, withAllClosed_withClosed]
        rfl

/-- A call that closes connections ends when all of them are closed, in any order. -/
theorem completeAll_closeAll (hnew : call ∉ network.callIds) (purpose : Purpose)
    {connections order : List Connection} (hperm : order.Perm connections) :
    let closing := network.closeAll call purpose connections
    let answered := closing.1.completeAll (order.map fun connection => .closed call connection)
    answered.1 = network.withAllClosed order ∧
      closing.2.finished ++ answered.2.finished = [⟨call, purpose, .done⟩] := by
  rcases closeAll_cases network call purpose connections with ⟨rfl, hcase⟩ | ⟨hsome, hcase⟩
  · rw [hperm.eq_nil, hcase]
    simp [completeAll, withAllClosed, Progress.finish, Progress.none]
  · rw [hcase]
    simp only [completeAll_suspend hnew purpose hsome hperm]
    exact ⟨trivial, rfl⟩

end Network
end RingRouting
