import Mathlib.Data.List.Forall2
import RingRouting.Proofs.Network.Standing

/-!
# Pools for endpoints that have none

Endpoints that have no pool get theirs one after another, in the order in which they are
listed.  If every pool can be made, all of them get one; the first pool that cannot be made
ends it, and the endpoints before it keep theirs.  The pools there were stay what and where
they are.

Main results:

- Theorem `EndpointPools.openedFor`: how the making of pools can end.
- Theorems `EndpointPools.find?_grown` and `EndpointPools.pool?_grown`: what stays.
-/

namespace RingRouting
namespace EndpointPools

variable {Purpose : Type} {pools : EndpointPools Purpose}

/-- The factory makes this pool for the endpoint. -/
def Makes (pools : EndpointPools Purpose) (endpoint : Address) (pool : Pool) : Prop :=
  pools.factory ⟨endpoint, pools.capacity⟩ = .ok pool

/-- The endpoints listed that have no pool. -/
def lacking (pools : EndpointPools Purpose) (endpoints : List Address) : List Address :=
  endpoints.filter fun endpoint => (pools.find? endpoint).isNone

/-! ## New pools -/

/-- The map and the network with new pools, the next numbers given out in order. -/
def grown (pools : EndpointPools Purpose) (opened : List Address) (made : List Pool) :
    EndpointPools Purpose :=
  { pools with
    entries := pools.entries ++ opened.zipIdx pools.network.pools.length
    network := { pools.network with pools := pools.network.pools ++ made } }

@[simp]
theorem grown_nil (pools : EndpointPools Purpose) : pools.grown [] [] = pools := by
  simp [grown]

/-- One pool more, and then others. -/
theorem grown_grown (pools : EndpointPools Purpose) (endpoint : Address) (pool : Pool)
    (opened : List Address) (made : List Pool) :
    (pools.grown [endpoint] [pool]).grown opened made =
      pools.grown (endpoint :: opened) (pool :: made) := by
  simp [grown]

/-- An endpoint that has a pool keeps that pool. -/
theorem find?_grown {endpoint : Address} {id : PoolId} (h : pools.find? endpoint = some id)
    (opened : List Address) (made : List Pool) :
    (pools.grown opened made).find? endpoint = some id := by
  unfold find? at h ⊢
  rw [grown, List.lookup_append, h]
  rfl

/-- A pool keeps its number, and all that it is. -/
theorem pool?_grown {id : PoolId} {pool : Pool} (h : pools.pool? id = some pool)
    (opened : List Address) (made : List Pool) :
    (pools.grown opened made).pool? id = some pool :=
  (List.getElem?_append_left (List.getElem?_eq_some_iff.1 h).1).trans h

/-- One endpoint that has got a pool lacks one no longer, and it is the only one. -/
theorem lacking_grown {endpoint : Address} {rest : List Address} (h : endpoint ∉ rest)
    (pool : Pool) : (pools.grown [endpoint] [pool]).lacking rest = pools.lacking rest := by
  apply List.filter_congr
  intro other hother
  have hne : (other == endpoint) = false := beq_false_of_ne (ne_of_mem_of_not_mem hother h)
  simp [find?, grown, List.lookup_append, List.lookup_cons, hne]

/-! ## How it ends -/

/-- How the making of pools for endpoints that have none can end. -/
inductive OpenedFor (pools : EndpointPools Purpose) :
    List Address → Except ConfigurationError Unit × EndpointPools Purpose → Prop where
  /-- All endpoints have got one. -/
  | all {lacking : List Address} {made : List Pool}
      (hmade : List.Forall₂ pools.Makes lacking made) :
      OpenedFor pools lacking (.ok (), pools.grown lacking made)
  /-- One endpoint has got none, nor have those after it. -/
  | refused {opened rest : List Address} {refused : Address} {made : List Pool}
      {e : ConfigurationError} (hmade : List.Forall₂ pools.Makes opened made)
      (hrefused : pools.factory ⟨refused, pools.capacity⟩ = .error e) :
      OpenedFor pools (opened ++ refused :: rest) (.error e, pools.grown opened made)

/-- What others get after an endpoint has got its pool. -/
theorem OpenedFor.cons {endpoint : Address} {pool : Pool} {lacking : List Address}
    {result : Except ConfigurationError Unit × EndpointPools Purpose}
    (hpool : pools.Makes endpoint pool)
    (h : (pools.grown [endpoint] [pool]).OpenedFor lacking result) :
    pools.OpenedFor (endpoint :: lacking) result := by
  cases h with
  | all hmade =>
      rw [grown_grown]
      exact .all (.cons hpool hmade)
  | refused hmade hrefused =>
      rw [grown_grown, ← List.cons_append]
      exact .refused (.cons hpool hmade) hrefused

/-- Endpoints that have no pool get theirs in order, until one cannot be made. -/
theorem openedFor {endpoints : List Address} (hnodup : endpoints.Nodup)
    (pools : EndpointPools Purpose) :
    pools.OpenedFor (pools.lacking endpoints) (pools.openMissingFor endpoints) := by
  induction endpoints generalizing pools with
  | nil =>
      have hnone : pools.OpenedFor [] (.ok (), pools.grown [] []) := .all .nil
      rwa [grown_nil] at hnone
  | cons endpoint rest ih =>
      rw [List.nodup_cons] at hnodup
      rw [openMissingFor, lacking]
      cases hfind : pools.find? endpoint with
      | some id =>
          rw [List.filter_cons_of_neg (by simp [hfind])]
          exact ih hnodup.2 pools
      | none =>
          rw [List.filter_cons_of_pos (by simp [hfind])]
          simp only [Option.isSome_none, Bool.false_eq_true, if_false, openPool]
          cases hpool : pools.factory ⟨endpoint, pools.capacity⟩ with
          | error e =>
              have hfirst : pools.OpenedFor ([] ++ endpoint :: pools.lacking rest)
                  (.error e, pools.grown [] []) := .refused .nil hpool
              rwa [grown_nil, List.nil_append] at hfirst
          | ok pool =>
              have hrest := ih hnodup.2 (pools.grown [endpoint] [pool])
              rw [lacking_grown hnodup.1] at hrest
              exact .cons hpool hrest

end EndpointPools
end RingRouting
