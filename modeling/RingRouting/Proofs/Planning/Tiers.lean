import RingRouting.Proofs.Planning.Ranking

/-!
# Tiers of a ranking

Ranked by proximity, candidates stand in five tiers: the reference, those that share its
datacenter and its rack, those that share its datacenter only, those elsewhere whose rack has the
name of its rack, and all others.  In each tier candidates stand as they stood before.

Main results:

- Theorem `Snitch.distance_eq_iff`: the tiers, told by distances.
- Theorem `Snitch.sortedByProximity_eq_append`: a ranking is its tiers, one after another.
- Theorem `Snitch.ranks_in_tiers`: the comparison is a total preorder, and the tiers are what
  ranking by it gives.
-/

namespace RingRouting
namespace Snitch

variable (snitch : Snitch) (reference : Address)

/-! ## The comparison -/

theorem compareByProximity_swap (a b : Address) :
    (snitch.compareByProximity reference a b).swap = snitch.compareByProximity reference b a := by
  rw [compareByProximity_eq, compareByProximity_eq, Nat.compare_swap]

theorem compareByProximity_ne_gt_iff (a b : Address) :
    snitch.compareByProximity reference a b ≠ .gt ↔
      snitch.distance reference a ≤ snitch.distance reference b := by
  rw [← not_gt_iff, bne_iff_ne]

/-! ## Tiers -/

/-- Of the candidates other than the reference those that share its datacenter or do not, and
the name of its rack or do not. -/
def othersAt (sameDatacenter sameRack : Bool) (candidates : List Address) : List Address :=
  candidates.filter fun a => a ≠ reference ∧
    (snitch.datacenter a == snitch.datacenter reference) = sameDatacenter ∧
    (snitch.rack a == snitch.rack reference) = sameRack

/-- Each tier has a distance of its own. -/
theorem distance_eq_iff (sameDatacenter sameRack : Bool) (a : Address) :
    snitch.distance reference a = 4 + 2 * (!sameDatacenter).toNat + (!sameRack).toNat ↔
      a ≠ reference ∧ (snitch.datacenter a == snitch.datacenter reference) = sameDatacenter ∧
        (snitch.rack a == snitch.rack reference) = sameRack := by
  by_cases hreference : a = reference
  · rw [hreference, distance_self]
    constructor
    · intro hzero
      omega
    · rintro ⟨hother, -⟩
      exact absurd rfl hother
  · rw [distance, bne_iff_ne.2 hreference, bne, bne]
    cases snitch.datacenter a == snitch.datacenter reference <;>
      cases snitch.rack a == snitch.rack reference <;>
      cases sameDatacenter <;> cases sameRack <;> simp [hreference]

theorem distance_eq_zero_iff (a : Address) :
    snitch.distance reference a = 0 ↔ a = reference :=
  ⟨eq_of_distance_eq_zero, fun h => h ▸ snitch.distance_self reference⟩

theorem filter_distance_eq (sameDatacenter sameRack : Bool) (candidates : List Address) :
    (candidates.filter fun a =>
        snitch.distance reference a = 4 + 2 * (!sameDatacenter).toNat + (!sameRack).toNat) =
      snitch.othersAt reference sameDatacenter sameRack candidates :=
  List.filter_congr fun a _ => decide_eq_decide.2 (snitch.distance_eq_iff reference _ _ a)

/-- Every candidate stands in a tier. -/
theorem distance_mem (a : Address) : snitch.distance reference a ∈ [0, 4, 5, 6, 7] := by
  by_cases hreference : a = reference
  · rw [hreference, distance_self]
    exact List.mem_cons_self
  · rw [distance, bne_iff_ne.2 hreference]
    cases snitch.datacenter a != snitch.datacenter reference <;>
      cases snitch.rack a != snitch.rack reference <;> decide

/-- A ranking is its tiers, one after another, and leaves each tier as it was. -/
theorem sortedByProximity_eq_append (candidates : List Address) :
    snitch.sortedByProximity reference candidates =
      candidates.filter (fun a => a = reference) ++
        snitch.othersAt reference true true candidates ++
        snitch.othersAt reference true false candidates ++
        snitch.othersAt reference false true candidates ++
        snitch.othersAt reference false false candidates := by
  have hreference : (candidates.filter fun a => snitch.distance reference a = 0) =
      candidates.filter fun a => a = reference :=
    List.filter_congr fun a _ => decide_eq_decide.2 (snitch.distance_eq_zero_iff reference a)
  have hkeys : [0, 4, 5, 6, 7].Pairwise (· < ·) := by decide
  rw [sortedByProximity_eq_mergeSort,
    mergeSort_eq_flatMap_filter hkeys fun a _ => snitch.distance_mem reference a]
  simp only [← filter_distance_eq, ← hreference, List.flatMap_cons, List.flatMap_nil,
    List.append_assoc, List.append_nil]
  rfl

/-- Candidates that compare equal to one another stay in their order. -/
theorem filter_sortedByProximity (a : Address) (candidates : List Address) :
    (snitch.sortedByProximity reference candidates).filter
        (fun b => snitch.compareByProximity reference a b = .eq) =
      candidates.filter fun b => snitch.compareByProximity reference a b = .eq := by
  have hequal : ∀ b, snitch.compareByProximity reference a b = .eq ↔
      snitch.distance reference b = snitch.distance reference a := by
    intro b
    rw [compareByProximity_eq, Nat.compare_eq_eq, eq_comm]
  simp only [hequal, sortedByProximity_eq_mergeSort]
  exact filter_mergeSort_key _ candidates

/-! ## Ranking -/

/-- Whatever a snitch tells of datacenters and racks, candidates compare by a total preorder.  The
ranking of any candidates is the reference as often as it is among them, then those of its
datacenter and rack, then those of its datacenter and another rack, then those of another
datacenter whose rack has the same name, and then all others, all in their order.  So candidates
that compare equal keep their order, and a ranking is ranked as it stands. -/
theorem ranks_in_tiers :
    (∀ a b, (snitch.compareByProximity reference a b).swap =
      snitch.compareByProximity reference b a) ∧
    (∀ a b, snitch.compareByProximity reference a b ≠ .gt ∨
      snitch.compareByProximity reference b a ≠ .gt) ∧
    (∀ a b c, snitch.compareByProximity reference a b ≠ .gt →
      snitch.compareByProximity reference b c ≠ .gt →
        snitch.compareByProximity reference a c ≠ .gt) ∧
    ∀ candidates,
      snitch.sortedByProximity reference candidates =
        candidates.filter (fun a => a = reference) ++
          snitch.othersAt reference true true candidates ++
          snitch.othersAt reference true false candidates ++
          snitch.othersAt reference false true candidates ++
          snitch.othersAt reference false false candidates ∧
      (snitch.sortedByProximity reference candidates).Perm candidates ∧
      (∀ a, (snitch.sortedByProximity reference candidates).filter
          (fun b => snitch.compareByProximity reference a b = .eq) =
        candidates.filter fun b => snitch.compareByProximity reference a b = .eq) ∧
      snitch.sortedByProximity reference (snitch.sortedByProximity reference candidates) =
        snitch.sortedByProximity reference candidates := by
  refine ⟨snitch.compareByProximity_swap reference, ?_, ?_, fun candidates => ?_⟩
  · intro a b
    rw [compareByProximity_ne_gt_iff, compareByProximity_ne_gt_iff]
    exact Nat.le_total _ _
  · intro a b c hab hbc
    rw [compareByProximity_ne_gt_iff] at hab hbc ⊢
    exact Nat.le_trans hab hbc
  · exact ⟨snitch.sortedByProximity_eq_append reference candidates,
      snitch.sortedByProximity_perm reference candidates,
      fun a => snitch.filter_sortedByProximity reference a candidates,
      snitch.sortedByProximity_idem reference candidates⟩

/-- The reference is listed twice, and two addresses elsewhere are told apart by the names of
their racks only. -/
example :
    let here := Address.ofQuad 10 1 1 1
    let near := Address.ofQuad 10 1 1 2
    let far := Address.ofQuad 10 3 4 1
    let namesake := Address.ofQuad 10 2 1 1
    rackInferring.sortedByProximity here [far, here, namesake, near, here] =
      [here, here, near, namesake, far] := by
  cbv

end Snitch
end RingRouting
