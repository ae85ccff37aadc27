import RingRouting.Proofs.Sorting
import RingRouting.Snitch

/-!
# Ranking by proximity

The comparison of two candidates is that of two numbers: the distances of the candidates
from the reference.  Ranking therefore sorts by a total preorder, and ranking a list that
is ranked already changes nothing.

Main results:

- Theorem `Snitch.compareByProximity_eq`: the comparison compares distances.
- Theorem `Snitch.pairwise_sortedByProximity`: distances do not decrease.
- Theorem `Snitch.sortedByProximity_idem`: ranking twice is ranking once.
-/

namespace RingRouting
namespace Snitch

/-! ## Distances -/

/-- How far a candidate is: from itself, and from its datacenter and its rack, nothing.
Another datacenter weighs more than another rack, and another address more than both. -/
def distance (snitch : Snitch) (reference a : Address) : Nat :=
  4 * (a != reference).toNat +
    2 * (snitch.datacenter a != snitch.datacenter reference).toNat +
    (snitch.rack a != snitch.rack reference).toNat

/-- Flags that are compared one after another compare as the number they spell. -/
theorem flagFirst_then (p q r p' q' r' : Bool) :
    (flagFirst p p').then ((flagFirst q q').then (flagFirst r r')) =
      compare (4 * (!p).toNat + 2 * (!q).toNat + (!r).toNat)
        (4 * (!p').toNat + 2 * (!q').toNat + (!r').toNat) := by
  cases p <;> cases q <;> cases r <;> cases p' <;> cases q' <;> cases r' <;> decide

/-- The comparison of two candidates is that of their distances. -/
theorem compareByProximity_eq (snitch : Snitch) (reference a b : Address) :
    snitch.compareByProximity reference a b =
      compare (snitch.distance reference a) (snitch.distance reference b) :=
  flagFirst_then _ _ _ _ _ _

/-- Nothing but the reference is at no distance from it. -/
theorem distance_self (snitch : Snitch) (reference : Address) :
    snitch.distance reference reference = 0 := by
  simp [distance]

theorem eq_of_distance_eq_zero {snitch : Snitch} {reference a : Address}
    (h : snitch.distance reference a = 0) : a = reference := by
  by_cases hsame : a = reference
  · exact hsame
  · rw [distance, bne_iff_ne.2 hsame] at h
    simp at h

/-! ## Ranking -/

theorem not_gt_iff (snitch : Snitch) (reference a b : Address) :
    (snitch.compareByProximity reference a b != .gt) = true ↔
      snitch.distance reference a ≤ snitch.distance reference b := by
  rw [compareByProximity_eq, bne_iff_ne, Nat.compare_ne_gt]

/-- Ranking is a permutation. -/
theorem sortedByProximity_perm (snitch : Snitch) (reference : Address)
    (candidates : List Address) :
    (snitch.sortedByProximity reference candidates).Perm candidates :=
  List.mergeSort_perm _ _

/-- Candidates are sorted by their distances. -/
theorem sortedByProximity_eq_mergeSort (snitch : Snitch) (reference : Address)
    (candidates : List Address) :
    snitch.sortedByProximity reference candidates =
      candidates.mergeSort fun a b =>
        snitch.distance reference a ≤ snitch.distance reference b := by
  rw [sortedByProximity]
  congr 1
  funext a b
  rw [Bool.eq_iff_iff, not_gt_iff, decide_eq_true_eq]

/-- From the first ranked candidate to the last, distances do not decrease. -/
theorem pairwise_sortedByProximity (snitch : Snitch) (reference : Address)
    (candidates : List Address) :
    (snitch.sortedByProximity reference candidates).Pairwise fun a b =>
      snitch.distance reference a ≤ snitch.distance reference b := by
  rw [sortedByProximity_eq_mergeSort]
  exact (List.pairwise_mergeSort key_le_trans key_le_total candidates).imp of_decide_eq_true

/-- Ranking candidates that are ranked changes nothing. -/
theorem sortedByProximity_idem (snitch : Snitch) (reference : Address)
    (candidates : List Address) :
    snitch.sortedByProximity reference (snitch.sortedByProximity reference candidates) =
      snitch.sortedByProximity reference candidates := by
  apply List.mergeSort_of_pairwise
  have hsorted := snitch.pairwise_sortedByProximity reference candidates
  exact hsorted.imp fun h => (not_gt_iff _ _ _ _).2 h

end Snitch
end RingRouting
