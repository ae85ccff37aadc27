import RingRouting.Network.Calls
import RingRouting.Proofs.Network.PoolSteps

/-!
# What the steps of a network do

A call on pools runs in stretches.  This module says once what each stretch can do
to a network, so that laws about networks go case by case through these lists and
never back to the functions themselves.

Main results:

- Theorems `Network.acquired`, `Network.disposed` and `Network.completed`: the possible
  effects of a request for a connection, of disposing pools, and of an answer of the
  transport.
- Theorem `Network.Completed.of_finish`: which call an answer has ended.
- Theorem `Network.calls_perm_resume`: resuming takes out one call.
- Theorems `Network.Numbered.suspend` and its like: calls that wait, that are queued
  elsewhere, and that run have different numbers.
-/

namespace RingRouting
namespace Network

variable {Purpose : Type}

/-! ## Effects of a step -/

/-- The network after a connection was opened. -/
def withOpened (network : Network Purpose) (connection : Connection) : Network Purpose :=
  { network with opened := network.opened ++ [connection] }

/-- The network after an endpoint could not be reached. -/
def withRefused (network : Network Purpose) (endpoint : Address) : Network Purpose :=
  { network with refused := network.refused ++ [endpoint] }

/-- The network after a connection was closed. -/
def withClosed (network : Network Purpose) (connection : Connection) : Network Purpose :=
  { network with closed := network.closed ++ [connection] }

/-- The connection that is opened next, if it is one to the given endpoint. -/
def nextConnection (network : Network Purpose) (endpoint : Address) : Connection :=
  ⟨network.opened.length, endpoint⟩

/-- A pool may be put in its own place. -/
theorem setPool_self {network : Network Purpose} {id : PoolId} {pool : Pool}
    (hpool : network.pools[id]? = some pool) : network.setPool id pool = network := by
  obtain ⟨hlt, hget⟩ := List.getElem?_eq_some_iff.1 hpool
  unfold setPool
  rw [← hget, List.set_getElem_self]

/-- What a request for a connection can do. -/
inductive Acquired (network : Network Purpose) (call : CallId) (purpose : Purpose)
    (id : PoolId) : Network Purpose × Progress Purpose → Prop where
  /-- There is no such pool. -/
  | missing (hpool : network.pools[id]? = none) :
      Acquired network call purpose id (network, .none)
  /-- The pool is disposed. -/
  | refused {pool : Pool} (hpool : network.pools[id]? = some pool)
      (hdisposed : pool.disposed = true) :
      Acquired network call purpose id
        (network, .finish call purpose (.failed (.disposed pool.endpoint)))
  /-- A kept connection is lent. -/
  | reused {pool after : Pool} {connection : Connection}
      (hpool : network.pools[id]? = some pool)
      (hreused : pool.acquire = (.reused connection, after)) :
      Acquired network call purpose id
        (network.setPool id after, .finish call purpose (.lent id connection))
  /-- The call waits for a new connection. -/
  | opening {pool : Pool} (hpool : network.pools[id]? = some pool)
      (hlive : pool.disposed = false) :
      Acquired network call purpose id
        (network.suspend call purpose (.opening id), .ask [.opening call pool.endpoint])

theorem acquired (network : Network Purpose) (call : CallId) (purpose : Purpose)
    (id : PoolId) :
    Acquired network call purpose id (network.acquireAs call purpose id) := by
  unfold acquireAs
  split
  · rename_i hpool
    exact .missing hpool
  · rename_i pool hpool
    rcases pool.acquire_cases with ⟨hdisposed, h⟩ | ⟨hlive, -, h⟩ | ⟨c, after, -, h, -⟩
    · rw [h]
      exact .refused hpool hdisposed
    · rw [h]
      exact .opening hpool hlive
    · rw [h]
      exact .reused hpool h

/-- What an answer of the transport can do. -/
inductive Completed (network : Network Purpose) :
    Network Purpose × Progress Purpose → Prop where
  /-- No call waits for it. -/
  | ignored : Completed network (network, .none)
  /-- A new connection is lent. -/
  | lent {waiting : Call Purpose} {id : PoolId} {pool : Pool}
      (hcall : waiting ∈ network.calls) (hwait : waiting.wait = .opening id)
      (hpool : network.pools[id]? = some pool) (hlive : pool.disposed = false) :
      Completed network
        ((network.resume waiting.id).withOpened (network.nextConnection pool.endpoint),
          .finish waiting.id waiting.purpose
            (.lent id (network.nextConnection pool.endpoint)))
  /-- A new connection comes too late: its pool is disposed. -/
  | late {waiting : Call Purpose} {id : PoolId} {pool : Pool}
      (hcall : waiting ∈ network.calls) (hwait : waiting.wait = .opening id)
      (hpool : network.pools[id]? = some pool) (hdisposed : pool.disposed = true) :
      Completed network
        (((network.resume waiting.id).withOpened (network.nextConnection pool.endpoint)).suspend
            waiting.id waiting.purpose
            (.discarding id (network.nextConnection pool.endpoint)),
          .ask [.closing waiting.id (network.nextConnection pool.endpoint)])
  /-- The endpoint cannot be reached. -/
  | unreachable {waiting : Call Purpose} {id : PoolId} {pool : Pool} {cause : ConnectionError}
      (hcall : waiting ∈ network.calls) (hwait : waiting.wait = .opening id)
      (hpool : network.pools[id]? = some pool) :
      Completed network
        ((network.resume waiting.id).withRefused pool.endpoint,
          .finish waiting.id waiting.purpose (.failed (.unreachable cause)))
  /-- A connection that came too late is closed. -/
  | discarded {waiting : Call Purpose} {id : PoolId} {pool : Pool}
      {connection : Connection} (hcall : waiting ∈ network.calls)
      (hwait : waiting.wait = .discarding id connection)
      (hpool : network.pools[id]? = some pool) :
      Completed network
        ((network.resume waiting.id).withClosed connection,
          .finish waiting.id waiting.purpose (.failed (.disposed pool.endpoint)))
  /-- The last connection that a call waits for is closed. -/
  | lastClosed {waiting : Call Purpose} {left : List Connection} {connection : Connection}
      (hcall : waiting ∈ network.calls) (hwait : waiting.wait = .closing left)
      (hmem : connection ∈ left) (hlast : left.erase connection = []) :
      Completed network
        ((network.resume waiting.id).withClosed connection,
          .finish waiting.id waiting.purpose .done)
  /-- One of several connections that a call waits for is closed. -/
  | oneClosed {waiting : Call Purpose} {left : List Connection} {connection : Connection}
      (hcall : waiting ∈ network.calls) (hwait : waiting.wait = .closing left)
      (hmem : connection ∈ left) (hmore : left.erase connection ≠ []) :
      Completed network
        (((network.resume waiting.id).withClosed connection).suspend waiting.id
            waiting.purpose (.closing (left.erase connection)), .none)

theorem completed_opened {network : Network Purpose} {waiting : Call Purpose} {id : PoolId}
    (hcall : waiting ∈ network.calls) (hwait : waiting.wait = .opening id) :
    Completed network (network.completeOpened waiting id) := by
  unfold completeOpened
  split
  · exact .ignored
  · rename_i pool hpool
    cases hdisposed : pool.disposed with
    | false =>
        have hwelcome : pool.welcome = true := by simp [Pool.welcome, hdisposed]
        simp only [hwelcome, if_true]
        exact .lent hcall hwait hpool hdisposed
    | true =>
        have hwelcome : ¬ pool.welcome = true := by simp [Pool.welcome, hdisposed]
        simp only [hwelcome]
        exact .late hcall hwait hpool hdisposed

theorem completed_unreachable {network : Network Purpose} {waiting : Call Purpose}
    {id : PoolId} (hcall : waiting ∈ network.calls) (hwait : waiting.wait = .opening id)
    (cause : ConnectionError) :
    Completed network (network.completeUnreachable waiting id cause) := by
  unfold completeUnreachable
  split
  · exact .ignored
  · rename_i pool hpool
    exact .unreachable hcall hwait hpool

theorem completed_closed {network : Network Purpose} {waiting : Call Purpose}
    (hcall : waiting ∈ network.calls) (connection : Connection) :
    Completed network (network.completeClosed waiting connection) := by
  unfold completeClosed
  split
  · exact .ignored
  · rename_i id awaited hwait
    split
    · rename_i hsame
      subst hsame
      split
      · exact .ignored
      · rename_i pool hpool
        exact .discarded hcall hwait hpool
    · exact .ignored
  · rename_i left hwait
    by_cases hmem : connection ∈ left
    · simp only [hmem, if_true]
      split
      · rename_i hlast
        exact .lastClosed hcall hwait hmem (List.isEmpty_iff.1 hlast)
      · rename_i hmore
        exact .oneClosed hcall hwait hmem fun hnone => hmore (List.isEmpty_iff.2 hnone)
    · simp only [hmem, if_false]
      exact .ignored

theorem call?_mem {network : Network Purpose} {id : CallId} {waiting : Call Purpose}
    (h : network.call? id = some waiting) : waiting ∈ network.calls :=
  List.mem_of_find?_eq_some h

/-- What the end of a connection does that a call waits for. -/
theorem complete_closed {network : Network Purpose} {waiting : Call Purpose}
    {left : List Connection} {connection : Connection}
    (hfound : network.call? waiting.id = some waiting) (hwait : waiting.wait = .closing left)
    (hmem : connection ∈ left) :
    network.complete (.closed waiting.id connection) =
      if (left.erase connection).isEmpty then
        ((network.resume waiting.id).withClosed connection,
          .finish waiting.id waiting.purpose .done)
      else
        (((network.resume waiting.id).withClosed connection).suspend waiting.id waiting.purpose
          (.closing (left.erase connection)), .none) := by
  simp only [complete, hfound, completeClosed, hwait, hmem, if_true]
  rfl

theorem completed (network : Network Purpose) (completion : Completion) :
    Completed network (network.complete completion) := by
  unfold complete
  split
  · split
    · rename_i waiting hcall
      split
      · rename_i id hwait
        exact completed_opened (call?_mem hcall) hwait
      · exact .ignored
    · exact .ignored
  · split
    · rename_i waiting hcall
      split
      · rename_i id hwait
        exact completed_unreachable (call?_mem hcall) hwait _
      · exact .ignored
    · exact .ignored
  · split
    · rename_i waiting hcall
      exact completed_closed (call?_mem hcall) _
    · exact .ignored
  · exact .ignored

/-- An answer ends at most one call. -/
theorem Completed.eq_finish {network : Network Purpose}
    {result : Network Purpose × Progress Purpose} (h : network.Completed result)
    {ended : Finished Purpose} (hended : ended ∈ result.2.finished) :
    result.2 = .finish ended.call ended.purpose ended.outcome := by
  have hone : ∀ call purpose outcome,
      ended ∈ (Progress.finish call purpose outcome).finished →
        Progress.finish call purpose outcome =
          Progress.finish ended.call ended.purpose ended.outcome := by
    intro call purpose outcome hmem
    rw [List.mem_singleton.1 hmem]
  cases h with
  | ignored => cases hended
  | late => cases hended
  | oneClosed => cases hended
  | lent => exact hone _ _ _ hended
  | unreachable => exact hone _ _ _ hended
  | discarded => exact hone _ _ _ hended
  | lastClosed => exact hone _ _ _ hended

theorem Completed.length_finished {network : Network Purpose}
    {result : Network Purpose × Progress Purpose} (h : network.Completed result) :
    result.2.finished.length ≤ 1 := by
  cases h <;> simp [Progress.none, Progress.ask, Progress.finish]

/-- The call that an answer has ended: the one that waited, and what it waited for. -/
theorem Completed.of_finish {network after : Network Purpose} {call : CallId}
    {purpose : Purpose} {outcome : PoolOutcome}
    (h : network.Completed (after, .finish call purpose outcome)) :
    ∃ waiting ∈ network.calls, waiting.id = call ∧ waiting.purpose = purpose ∧
      after.calls = (network.resume call).calls ∧
      (∀ id connection, outcome = .lent id connection → waiting.wait = .opening id) ∧
      ∀ e, outcome = .failed e → e.poolIsGone = true →
        ∃ id connection, waiting.wait = .discarding id connection := by
  generalize hresult : (after, Progress.finish call purpose outcome) = result at h
  cases h with
  | ignored => cases hresult
  | late => cases hresult
  | oneClosed => cases hresult
  | lent hcall hwait =>
      cases hresult
      refine ⟨_, hcall, rfl, rfl, rfl, ?_, ?_⟩
      · intro id connection hlent
        cases hlent
        exact hwait
      · intro e hfailed
        cases hfailed
  | unreachable hcall =>
      cases hresult
      refine ⟨_, hcall, rfl, rfl, rfl, ?_, ?_⟩
      · intro id connection hlent
        cases hlent
      · intro e hfailed hgone
        cases hfailed
        cases hgone
  | discarded hcall hwait =>
      cases hresult
      refine ⟨_, hcall, rfl, rfl, rfl, ?_, fun e _ _ => ⟨_, _, hwait⟩⟩
      intro id connection hlent
      cases hlent
  | lastClosed hcall =>
      cases hresult
      refine ⟨_, hcall, rfl, rfl, rfl, ?_, ?_⟩
      · intro id connection hlent
        cases hlent
      · intro e hfailed
        cases hfailed

/-- No answer of the transport changes a pool. -/
theorem Completed.pools {network : Network Purpose}
    {result : Network Purpose × Progress Purpose} (h : network.Completed result) :
    result.1.pools = network.pools := by
  cases h <;> rfl

/-- What disposing pools can do. -/
inductive Disposed (network : Network Purpose) (call : CallId) (purpose : Purpose)
    (ids : List PoolId) : Network Purpose × Progress Purpose → Prop where
  /-- The pools keep nothing, and the call ends. -/
  | quiet (hquiet : (network.disposePools ids).1 = []) :
      Disposed network call purpose ids
        ((network.disposePools ids).2, .finish call purpose .done)
  /-- The call waits until what the pools kept is closed. -/
  | closing {requests : List Request} (hsome : (network.disposePools ids).1 ≠ []) :
      Disposed network call purpose ids
        ((network.disposePools ids).2.suspend call purpose
            (.closing (network.disposePools ids).1), .ask requests)

/-- A call that closes connections ends where there are none, and waits otherwise. -/
theorem closeAll_cases (network : Network Purpose) (call : CallId) (purpose : Purpose)
    (connections : List Connection) :
    (connections = [] ∧
        network.closeAll call purpose connections = (network, .finish call purpose .done)) ∨
      connections ≠ [] ∧
        network.closeAll call purpose connections =
          (network.suspend call purpose (.closing connections),
            .ask (connections.map fun connection => .closing call connection)) := by
  cases connections with
  | nil => exact .inl ⟨rfl, rfl⟩
  | cons first rest => exact .inr ⟨List.cons_ne_nil _ _, rfl⟩

@[simp]
theorem closeAll_pools (network : Network Purpose) (call : CallId) (purpose : Purpose)
    (connections : List Connection) :
    (network.closeAll call purpose connections).1.pools = network.pools := by
  rcases closeAll_cases network call purpose connections with ⟨-, h⟩ | ⟨-, h⟩ <;> rw [h]
  rfl

@[simp]
theorem closeAll_requests (network : Network Purpose) (call : CallId) (purpose : Purpose)
    (connections : List Connection) :
    (network.closeAll call purpose connections).2.requests =
      connections.map fun connection => .closing call connection := by
  rcases closeAll_cases network call purpose connections with ⟨hnil, h⟩ | ⟨-, h⟩
  · rw [h, hnil]
    rfl
  · rw [h]
    rfl

theorem disposed (network : Network Purpose) (call : CallId) (purpose : Purpose)
    (ids : List PoolId) :
    Disposed network call purpose ids (network.disposeAs call purpose ids) := by
  simp only [disposeAs]
  rcases closeAll_cases (network.disposePools ids).2 call purpose (network.disposePools ids).1
    with ⟨hquiet, h⟩ | ⟨hsome, h⟩
  · rw [h]
    exact .quiet hquiet
  · rw [h]
    exact .closing hsome

/-- What the return of a connection to a pool does. -/
theorem releaseAs_eq {network : Network Purpose} {id : PoolId} {pool : Pool}
    (hpool : network.pools[id]? = some pool) (call : CallId) (purpose : Purpose)
    (connection : Connection) :
    network.releaseAs call purpose id connection =
      (network.setPool id (pool.release connection).2).closeAll call purpose
        (pool.release connection).1.toList := by
  simp only [releaseAs, hpool]

/-- Disposing pools changes nothing but pools. -/
theorem disposePools_eq (ids : List PoolId) (network : Network Purpose) :
    (network.disposePools ids).2 =
      { network with pools := (network.disposePools ids).2.pools } := by
  induction ids generalizing network with
  | nil => rfl
  | cons first rest ih =>
      unfold disposePools
      split
      · exact ih network
      · exact ih _

/-! ## Numbers of calls -/

/-- The numbers of the calls that wait. -/
def callIds (network : Network Purpose) : List CallId :=
  network.calls.map Call.id

@[simp]
theorem callIds_suspend (network : Network Purpose) (call : CallId) (purpose : Purpose)
    (wait : Wait) : (network.suspend call purpose wait).callIds = network.callIds ++ [call] := by
  simp [callIds, suspend]

/-- Where calls have different numbers, resuming one takes out that one alone. -/
theorem calls_perm_resume {network : Network Purpose} {waiting : Call Purpose}
    (hnodup : network.callIds.Nodup) (hcall : waiting ∈ network.calls) :
    network.calls.Perm (waiting :: (network.resume waiting.id).calls) := by
  unfold callIds at hnodup
  simp only [resume]
  generalize network.calls = calls at hnodup hcall
  induction calls with
  | nil => cases hcall
  | cons first rest ih =>
      simp only [List.map_cons, List.nodup_cons] at hnodup
      rcases List.mem_cons.1 hcall with rfl | hrest
      · have hkept : rest.filter (fun other => other.id != waiting.id) = rest := by
          apply List.filter_eq_self.2
          intro other hother
          simp only [bne_iff_ne, ne_eq]
          intro hsame
          exact hnodup.1 (List.mem_map.2 ⟨other, hother, hsame⟩)
        simp [hkept]
      · have hother : first.id ≠ waiting.id := by
          intro hsame
          exact hnodup.1 (List.mem_map.2 ⟨waiting, hrest, hsame.symm⟩)
        have hkept : (first.id != waiting.id) = true := by simpa using hother
        rw [show (first :: rest).filter (fun other => other.id != waiting.id) =
          first :: rest.filter (fun other => other.id != waiting.id) from
            List.filter_cons_of_pos hkept]
        exact (List.Perm.cons first (ih hnodup.2 hrest)).trans (List.Perm.swap _ _ _)

/-- The calls that wait, and others that are queued elsewhere or run just now, have
different numbers, all given out before. -/
structure Numbered (network : Network Purpose) (others : List CallId) : Prop where
  nodup : (network.callIds ++ others).Nodup
  below : ∀ id ∈ network.callIds ++ others, id < network.nextCall

namespace Numbered

variable {network : Network Purpose} {others : List CallId} {call : CallId}

theorem callIds_nodup (h : network.Numbered others) : network.callIds.Nodup :=
  (List.nodup_append.1 h.nodup).1

/-- Only the numbers matter, not the pools or the record of the transport. -/
theorem congr {after : Network Purpose} (h : network.Numbered others)
    (hcalls : after.calls = network.calls) (hnext : after.nextCall = network.nextCall) :
    after.Numbered others := by
  have hids : after.callIds = network.callIds := by simp [callIds, hcalls]
  exact ⟨hids ▸ h.nodup, by rw [hids, hnext]; exact h.below⟩

/-- It does not matter in which order the others are listed, or whether they wait. -/
theorem perm {after : Network Purpose} {listed : List CallId} (h : network.Numbered others)
    (hnext : after.nextCall = network.nextCall)
    (hperm : (network.callIds ++ others).Perm (after.callIds ++ listed)) :
    after.Numbered listed :=
  ⟨hperm.nodup_iff.1 h.nodup, fun id hid => hnext ▸ h.below id (hperm.mem_iff.2 hid)⟩

/-- A call that runs may end. -/
theorem finish (h : network.Numbered (call :: others)) : network.Numbered others := by
  have hsub : (network.callIds ++ others).Sublist (network.callIds ++ call :: others) :=
    (List.Sublist.refl _).append (List.sublist_cons_self call others)
  exact ⟨h.nodup.sublist hsub, fun id hid => h.below id (hsub.subset hid)⟩

/-- A call that runs may wait. -/
theorem suspend (h : network.Numbered (call :: others)) (purpose : Purpose) (wait : Wait) :
    (network.suspend call purpose wait).Numbered others :=
  h.perm rfl (by simp)

/-- A call that waits may run on. -/
theorem resume {waiting : Call Purpose} (h : network.Numbered others)
    (hcall : waiting ∈ network.calls) :
    (network.resume waiting.id).Numbered (waiting.id :: others) := by
  have hperm : network.callIds.Perm (waiting.id :: (network.resume waiting.id).callIds) :=
    (calls_perm_resume h.callIds_nodup hcall).map Call.id
  refine h.perm rfl ?_
  exact (hperm.append_right others).trans List.perm_middle.symm

/-- A new call has a number of its own. -/
theorem newCall (h : network.Numbered others) :
    network.newCall.2.Numbered (network.newCall.1 :: others) := by
  have hfresh : network.nextCall ∉ network.callIds ++ others :=
    fun hmem => Nat.lt_irrefl _ (h.below _ hmem)
  have hperm : (network.nextCall :: (network.callIds ++ others)).Perm
      (network.callIds ++ network.nextCall :: others) := List.perm_middle.symm
  refine ⟨hperm.nodup_iff.1 (List.nodup_cons.2 ⟨hfresh, h.nodup⟩), ?_⟩
  intro id hid
  rcases List.mem_cons.1 (hperm.mem_iff.2 hid) with rfl | hid
  · exact Nat.lt_succ_self _
  · exact Nat.lt_succ_of_lt (h.below id hid)

end Numbered

/-- The numbers of the calls that a step has ended. -/
def endedIds (progress : Progress Purpose) : List CallId :=
  progress.finished.map Finished.call

/-- An answer of the transport lets one call run on, which ends or waits again. -/
theorem Numbered.completed {network : Network Purpose} {others : List CallId}
    {result : Network Purpose × Progress Purpose} (h : network.Numbered others)
    (hresult : network.Completed result) :
    result.1.Numbered (endedIds result.2 ++ others) := by
  cases hresult with
  | ignored => exact h
  | lent hcall => exact (h.resume hcall).congr rfl rfl
  | late hcall => exact ((h.resume hcall).suspend _ _).congr rfl rfl
  | unreachable hcall => exact (h.resume hcall).congr rfl rfl
  | discarded hcall => exact (h.resume hcall).congr rfl rfl
  | lastClosed hcall => exact (h.resume hcall).congr rfl rfl
  | oneClosed hcall => exact ((h.resume hcall).suspend _ _).congr rfl rfl

/-- A call that closes connections ends or waits. -/
theorem Numbered.closeAll {network : Network Purpose} {others : List CallId} {call : CallId}
    (h : network.Numbered (call :: others)) (purpose : Purpose)
    (connections : List Connection) :
    (network.closeAll call purpose connections).1.Numbered others := by
  rcases closeAll_cases network call purpose connections with ⟨-, hclosed⟩ | ⟨-, hclosed⟩
  · rw [hclosed]
    exact h.finish
  · rw [hclosed]
    exact h.suspend purpose _

/-- A request for a connection ends or waits. -/
theorem Numbered.acquired {network : Network Purpose} {others : List CallId} {call : CallId}
    {purpose : Purpose} {id : PoolId} {result : Network Purpose × Progress Purpose}
    (h : network.Numbered (call :: others)) (hresult : network.Acquired call purpose id result) :
    result.1.Numbered others := by
  cases hresult with
  | missing => exact h.finish
  | refused => exact h.finish
  | reused => exact h.finish.congr rfl rfl
  | opening => exact h.suspend purpose _

/-- The return of a connection ends or waits. -/
theorem Numbered.releaseAs {network : Network Purpose} {others : List CallId} {call : CallId}
    (h : network.Numbered (call :: others)) (purpose : Purpose) (id : PoolId)
    (connection : Connection) :
    (network.releaseAs call purpose id connection).1.Numbered others := by
  cases hpool : network.pools[id]? with
  | none =>
      simp only [Network.releaseAs, hpool]
      exact h.finish
  | some pool =>
      have hset : (network.setPool id (pool.release connection).2).Numbered (call :: others) :=
        h.congr rfl rfl
      rw [releaseAs_eq hpool]
      exact hset.closeAll purpose _

/-- Disposing pools ends or waits. -/
theorem Numbered.disposed {network : Network Purpose} {others : List CallId} {call : CallId}
    {purpose : Purpose} {ids : List PoolId} {result : Network Purpose × Progress Purpose}
    (h : network.Numbered (call :: others)) (hresult : network.Disposed call purpose ids result) :
    result.1.Numbered others := by
  have hkept : (network.disposePools ids).2.Numbered (call :: others) := by
    rw [disposePools_eq]
    exact h.congr rfl rfl
  cases hresult with
  | quiet => exact hkept.finish
  | closing => exact hkept.suspend purpose _

/-- Calls that run may end. -/
theorem Numbered.finishAll {network : Network Purpose} {others ended : List CallId}
    (h : network.Numbered (ended ++ others)) : network.Numbered others := by
  induction ended with
  | nil => exact h
  | cons call rest ih => exact ih h.finish

end Network
end RingRouting
