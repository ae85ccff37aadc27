import RingRouting.Hash.Murmur3
import RingRouting.Proofs.Results

/-!
# Octets fed to Murmur3 in pieces

Between two writes a hasher has taken all whole blocks of what it was fed into its lanes, and
keeps the octets of the incomplete block at the front of its buffer; what else the buffer
holds does not matter.  Every stretch of a write keeps this of the octets taken in so far, and
what it establishes beside it is what the checks of the next stretch ask for.  This is all that
a hasher remembers, so that it does not matter how the octets were cut into pieces.

Main definitions:

- `Murmur3.Lanes.mixBlocks`: several blocks at once.
- `Murmur3.Writing.Holds`, `Murmur3.Hasher.Holds`: what is remembered, during a write and between
  writes.

Main results:

- Theorem `Murmur3.Lanes.mixBlocks_add`: blocks are taken in one after another.
- Theorem `Murmur3.Writing.hashBlocks_eq_ok`: the checked loop takes in all whole blocks.
- Theorems `Murmur3.Writing.Holds.completeBlock`, `Murmur3.Writing.Holds.takeBlocks` and
  `Murmur3.Writing.Holds.keepRest`: the stretches of a write.
- Theorem `Murmur3.Hasher.Holds.write`: no check of a write fails, and the hasher goes on
  to hold what it was fed.
- Theorem `Murmur3.Hasher.Holds.finish_eq`: the hash depends on what was fed alone.
-/

namespace RingRouting
namespace Murmur3

/-! ## Blocks -/

/-- Takes a block of sixteen octets into the lanes. -/
def Lanes.mixBlock (lanes : Lanes) (block : List UInt8) : Lanes :=
  lanes.mix (word (block.take 8)) (word ((block.drop 8).take 8))

/-- Takes the first `count` blocks of some octets into the lanes. -/
def Lanes.mixBlocks (lanes : Lanes) : (count : Nat) → List UInt8 → Lanes
  | 0, _ => lanes
  | count + 1, octets =>
    (lanes.mixBlock (octets.take blockSize)).mixBlocks count (octets.drop blockSize)

@[simp]
theorem Lanes.mixBlocks_zero (lanes : Lanes) (octets : List UInt8) :
    lanes.mixBlocks 0 octets = lanes :=
  rfl

theorem Lanes.mixBlocks_succ (lanes : Lanes) (count : Nat) (octets : List UInt8) :
    lanes.mixBlocks (count + 1) octets =
      (lanes.mixBlock (octets.take blockSize)).mixBlocks count (octets.drop blockSize) := by
  -- not by `rfl`, which would compute with the constants of the mixing
  rw [Lanes.mixBlocks.eq_def]

/-- Blocks are taken in one after another. -/
theorem Lanes.mixBlocks_add (lanes : Lanes) (first second : Nat) (octets : List UInt8) :
    lanes.mixBlocks (first + second) octets =
      (lanes.mixBlocks first octets).mixBlocks second (octets.drop (first * blockSize)) := by
  induction first generalizing lanes octets with
  | zero => simp
  | succ first ih =>
      have hdrop : blockSize + first * blockSize = (first + 1) * blockSize := by
        rw [Nat.succ_mul, Nat.add_comm]
      rw [Nat.succ_add, mixBlocks_succ, ih, mixBlocks_succ, List.drop_drop, hdrop]

/-- Whole blocks at the front do not depend on what follows them. -/
theorem Lanes.mixBlocks_append (lanes : Lanes) {count : Nat} {front : List UInt8}
    (rest : List UInt8) (h : count * blockSize ≤ front.length) :
    lanes.mixBlocks count (front ++ rest) = lanes.mixBlocks count front := by
  induction count generalizing lanes front with
  | zero => rfl
  | succ count ih =>
      rw [Nat.succ_mul] at h
      have htake : (front ++ rest).take blockSize = front.take blockSize :=
        List.take_append_of_le_length (by omega)
      have hdrop : (front ++ rest).drop blockSize = front.drop blockSize ++ rest :=
        List.drop_append_of_le_length (by omega)
      have hfits : count * blockSize ≤ (front.drop blockSize).length := by
        rw [List.length_drop]
        omega
      rw [mixBlocks_succ, mixBlocks_succ, htake, hdrop, ih _ hfits]

theorem Lanes.mixBlocks_take (lanes : Lanes) {count : Nat} {octets : List UInt8}
    (h : count * blockSize ≤ octets.length) :
    lanes.mixBlocks count (octets.take (count * blockSize)) = lanes.mixBlocks count octets := by
  have hfits : count * blockSize ≤ (octets.take (count * blockSize)).length := by
    rw [List.length_take]
    omega
  rw [← lanes.mixBlocks_append (octets.drop (count * blockSize)) hfits, List.take_append_drop]

/-- The last of several whole blocks is taken in last. -/
theorem Lanes.mixBlocks_last (lanes : Lanes) {count : Nat} {octets : List UInt8}
    (h : octets.length = (count + 1) * blockSize) :
    lanes.mixBlocks (count + 1) octets =
      (lanes.mixBlocks count octets).mixBlock (octets.drop (count * blockSize)) := by
  have hlast : (octets.drop (count * blockSize)).length ≤ blockSize := by
    rw [List.length_drop, h, Nat.succ_mul]
    omega
  rw [mixBlocks_add, mixBlocks_succ, mixBlocks_zero, List.take_of_length_le hlast]

/-! ## Checked steps -/

theorem front_eq_ok {octets : List UInt8} {count : Nat} (h : count ≤ octets.length) :
    front octets count = .ok (octets.take count) :=
  if_pos h

theorem advance_eq_ok {octets : List UInt8} {count : Nat} (h : count ≤ octets.length) :
    advance octets count = .ok (octets.drop count) :=
  if_pos h

theorem ensure_eq_ok {condition : Prop} [Decidable condition] (h : condition) :
    ensure condition = .ok () :=
  if_pos (decide_eq_true h)

theorem readWord_eq_ok {octets : List UInt8} (h : 8 ≤ octets.length) :
    readWord octets = .ok (word (octets.take 8), octets.drop 8) :=
  if_pos h

/-- A block can be read where there are sixteen octets. -/
theorem readBlock_eq_ok {octets : List UInt8} (h : blockSize ≤ octets.length) :
    readBlock octets =
      .ok (word (octets.take 8), word ((octets.drop 8).take 8), octets.drop blockSize) := by
  have hsecond : 8 ≤ (octets.drop 8).length := by
    simp only [blockSize, List.length_drop] at *
    omega
  simp only [readBlock, readWord_eq_ok (Nat.le_trans (by decide : 8 ≤ blockSize) h),
    readWord_eq_ok hsecond, Except.ok_bind, List.drop_drop]
  rfl

/-- Octets that fit are stored behind those that stand before their position. -/
theorem store_eq_ok (buffer : Vector UInt8 16) {position count : Nat} {octets : List UInt8}
    (hlength : octets.length = count) (hfits : position + count ≤ 16) :
    ∃ after, store buffer position count octets = .ok after ∧
      after.toList.take (position + count) = buffer.toList.take position ++ octets := by
  have hbuffer : buffer.toList.length = 16 := Vector.length_toList
  rw [store, dif_pos hfits, dif_pos hlength]
  refine ⟨_, rfl, ?_⟩
  rw [Vector.toList_mk]
  apply List.take_left'
  simp only [List.length_append, List.length_take]
  omega

/-- All whole blocks are hashed where there are turns enough. -/
theorem Writing.hashBlocks_eq_ok {turns : Nat} {octets : List UInt8} (lanes : Lanes)
    (hturns : octets.length / blockSize ≤ turns) :
    hashBlocks turns lanes octets =
      .ok (lanes.mixBlocks (octets.length / blockSize) octets,
        octets.drop (octets.length / blockSize * blockSize)) := by
  induction turns generalizing lanes octets with
  | zero =>
      rw [Nat.le_zero.1 hturns, Nat.zero_mul, List.drop_zero, Lanes.mixBlocks_zero]
      rfl
  | succ turns ih =>
      rw [hashBlocks]
      by_cases hwhole : blockSize ≤ octets.length
      · have hcount :
            octets.length / blockSize = (octets.drop blockSize).length / blockSize + 1 := by
          rw [List.length_drop]
          simp only [blockSize] at *
          omega
        have hmixed : lanes.mix (word (octets.take 8)) (word ((octets.drop 8).take 8)) =
            lanes.mixBlock (octets.take blockSize) := by
          rw [Lanes.mixBlock, blockSize, List.drop_take, List.take_take, List.take_take]
          rfl
        rw [if_pos hwhole]
        simp only [readBlock_eq_ok hwhole, Except.ok_bind]
        rw [ih _ (by omega), hmixed, hcount, Lanes.mixBlocks_succ, List.drop_drop, Nat.succ_mul,
          Nat.add_comm blockSize]
      · have hnone : octets.length / blockSize = 0 := by
          simp only [blockSize] at *
          omega
        rw [if_neg hwhole, hnone, Lanes.mixBlocks_zero, Nat.zero_mul, List.drop_zero]

/-! ## A write under way -/

namespace Writing

/-- The whole blocks of what was taken in are in the lanes, and the octets of the incomplete one
are at the front of the buffer. -/
structure Holds (writing : Writing) (fed : List UInt8) : Prop where
  filled : writing.filled = fed.length % blockSize
  lanes : writing.lanes = Lanes.mixBlocks ⟨0, 0⟩ (fed.length / blockSize) fed
  pending : writing.buffer.toList.take writing.filled =
    fed.drop (fed.length / blockSize * blockSize)

/-- What a stretch of a write leaves: it is not refused, and the octets that it took in are held
with those before. -/
def Takes (fed : List UInt8) (writing : Writing) (result : Except Fault Writing)
    (after : Writing) : Prop :=
  result = .ok after ∧
    ∃ taken, writing.rest = taken ++ after.rest ∧ after.Holds (fed ++ taken)

variable {writing : Writing} {fed : List UInt8}

/-- A stretch may take in nothing. -/
theorem Holds.takes_nothing (h : writing.Holds fed) : Takes fed writing (.ok writing) writing :=
  ⟨rfl, [], rfl, (List.append_nil fed).symm ▸ h⟩

/-- Where whole blocks were taken in, nothing else has to be remembered. -/
theorem holds_of_whole {count : Nat} (hfed : fed.length = count * blockSize)
    (hempty : writing.filled = 0) (hlanes : writing.lanes = Lanes.mixBlocks ⟨0, 0⟩ count fed) :
    writing.Holds fed where
  filled := by rw [hfed, Nat.mul_mod_left, hempty]
  lanes := by rw [hfed, Nat.mul_div_left _ (by decide), hlanes]
  pending := by
    rw [hfed, Nat.mul_div_left _ (by decide), ← hfed, List.drop_length, hempty, List.take_zero]

/-- A block that can be completed is hashed: what the buffer held of it, then the octets that were
missing. -/
theorem completeBlock_eq_ok {missing : Nat} (hfull : writing.filled + missing = blockSize)
    (hbegun : 0 < writing.filled) (henough : missing ≤ writing.rest.length) :
    ∃ buffer : Vector UInt8 16,
      writing.completeBlock =
        .ok ⟨0, buffer, writing.lanes.mixBlock buffer.toList, writing.rest.drop missing⟩ ∧
      buffer.toList =
        writing.buffer.toList.take writing.filled ++ writing.rest.take missing := by
  have hmissing : blockSize - writing.filled = missing := by omega
  have hcount : min missing writing.rest.length = missing := Nat.min_eq_left henough
  have hlength : (writing.rest.take missing).length = missing := by
    rw [List.length_take, hcount]
  obtain ⟨buffer, hstore, hfront⟩ := store_eq_ok writing.buffer hlength (Nat.le_of_eq hfull)
  have hbuffer : buffer.toList.length = blockSize := Vector.length_toList
  have hempty : (buffer.toList.drop blockSize).isEmpty = true := by
    rw [List.drop_eq_nil_of_le (Nat.le_of_eq hbuffer)]
    rfl
  refine ⟨buffer, ?_, ?_⟩
  · simp only [Writing.completeBlock, hmissing, hcount, if_pos (And.intro hbegun henough),
      front_eq_ok henough, advance_eq_ok henough, hstore, ensure_eq_ok hfull,
      readBlock_eq_ok (Nat.le_of_eq hbuffer.symm), hempty, Except.ok_bind]
    rfl
  · rw [hfull, List.take_of_length_le (Nat.le_of_eq hbuffer)] at hfront
    exact hfront

/-- With an empty buffer, all whole blocks of the octets are hashed. -/
theorem takeBlocks_eq_ok (hempty : writing.filled = 0) :
    writing.takeBlocks = .ok { writing with
      lanes := writing.lanes.mixBlocks (writing.rest.length / blockSize) writing.rest
      rest := writing.rest.drop (writing.rest.length / blockSize * blockSize) } := by
  simp only [Writing.takeBlocks, if_pos hempty, Except.ok_bind,
    hashBlocks_eq_ok writing.lanes (Nat.div_le_self writing.rest.length blockSize)]
  rfl

/-- A block that was begun is completed if the octets suffice; otherwise there is room for all of
them behind it. -/
theorem Holds.completeBlock (h : writing.Holds fed) :
    ∃ after, Takes fed writing writing.completeBlock after ∧
      (after.filled = 0 ∨ after.filled + after.rest.length < blockSize) := by
  have hsplit := Nat.div_add_mod' fed.length blockSize
  have hfilled : writing.filled < blockSize := h.filled ▸ Nat.mod_lt _ (by decide)
  by_cases hcompletes : 0 < writing.filled ∧ blockSize - writing.filled ≤ writing.rest.length
  · obtain ⟨hbegun, henough⟩ := hcompletes
    have hfull := Nat.add_sub_cancel' (Nat.le_of_lt hfilled)
    obtain ⟨buffer, hcompleted, hwhole⟩ := completeBlock_eq_ok hfull hbegun henough
    generalize blockSize - writing.filled = missing at *
    have hfed : (fed ++ writing.rest.take missing).length =
        (fed.length / blockSize + 1) * blockSize := by
      have hpending := h.filled
      rw [List.length_append, List.length_take, Nat.min_eq_left henough, Nat.succ_mul]
      omega
    refine ⟨_, ⟨hcompleted, writing.rest.take missing, (List.take_append_drop _ _).symm, ?_⟩,
      .inl rfl⟩
    refine holds_of_whole hfed rfl ?_
    rw [Lanes.mixBlocks_last _ hfed, Lanes.mixBlocks_append _ _ (by omega),
      List.drop_append_of_le_length (by omega), ← h.lanes, ← h.pending, hwhole]
  · rw [Writing.completeBlock, if_neg hcompletes]
    exact ⟨writing, h.takes_nothing, by omega⟩

/-- With an empty buffer, all whole blocks are hashed; then there is room for what is left. -/
theorem Holds.takeBlocks (h : writing.Holds fed)
    (hready : writing.filled = 0 ∨ writing.filled + writing.rest.length < blockSize) :
    ∃ after, Takes fed writing writing.takeBlocks after ∧
      after.filled + after.rest.length < blockSize := by
  by_cases hempty : writing.filled = 0
  · have htaken := takeBlocks_eq_ok hempty
    have hsplit := Nat.div_add_mod' writing.rest.length blockSize
    have hleft := Nat.mod_lt writing.rest.length (by decide : 0 < blockSize)
    generalize writing.rest.length / blockSize = count at *
    have hwhole : count * blockSize ≤ writing.rest.length := by omega
    have hbefore : fed.length = fed.length / blockSize * blockSize := by
      have hsplit := Nat.div_add_mod' fed.length blockSize
      have hfilled := h.filled
      omega
    have hfed : (fed ++ writing.rest.take (count * blockSize)).length =
        (fed.length / blockSize + count) * blockSize := by
      rw [List.length_append, List.length_take, Nat.min_eq_left hwhole, Nat.add_mul, ← hbefore]
    refine ⟨_, ⟨htaken, writing.rest.take (count * blockSize),
      (List.take_append_drop _ _).symm, ?_⟩, ?_⟩
    · refine holds_of_whole hfed hempty ?_
      rw [Lanes.mixBlocks_add, Lanes.mixBlocks_append _ _ (Nat.le_of_eq hbefore.symm), ← hbefore,
        List.drop_left, h.lanes, Lanes.mixBlocks_take _ hwhole]
    · rw [hempty, List.length_drop]
      omega
  · rw [Writing.takeBlocks, if_neg hempty]
    exact ⟨writing, h.takes_nothing, hready.resolve_left hempty⟩

/-- What is left is kept behind the octets of the incomplete block. -/
theorem Holds.keepRest (h : writing.Holds fed)
    (hroom : writing.filled + writing.rest.length < blockSize) :
    ∃ buffer, writing.keepRest = .ok { writing with buffer := buffer, rest := [] } ∧
      Holds { writing with
        filled := writing.filled + writing.rest.length, buffer := buffer, rest := [] }
        (fed ++ writing.rest) := by
  have hsplit := Nat.div_add_mod' fed.length blockSize
  have hdiv : (fed ++ writing.rest).length / blockSize = fed.length / blockSize := by
    have hfilled := h.filled
    rw [List.length_append]
    simp only [blockSize] at *
    omega
  have hmod : (fed ++ writing.rest).length % blockSize = writing.filled + writing.rest.length := by
    have hfilled := h.filled
    rw [List.length_append]
    simp only [blockSize] at *
    omega
  obtain ⟨buffer, hstore, hfront⟩ := store_eq_ok writing.buffer rfl (Nat.le_of_lt hroom)
  refine ⟨buffer, ?_, hmod.symm, ?_, ?_⟩
  · have hensure : writing.rest.length < blockSize - writing.filled := by omega
    simp only [Writing.keepRest, ensure_eq_ok hensure, front_eq_ok (Nat.le_refl _),
      advance_eq_ok (Nat.le_refl _), List.take_length, hstore, List.drop_length, Except.ok_bind]
    rfl
  · rw [hdiv, Lanes.mixBlocks_append _ _ (by omega)]
    exact h.lanes
  · have hfilled := h.filled
    rw [hdiv, hfront, h.pending, List.drop_append_of_le_length (by omega)]

end Writing

namespace Hasher

/-! ## What a hasher remembers -/

/-- The hasher has taken in the whole blocks of what it was fed, and keeps the octets of the
incomplete one. -/
structure Holds (hasher : Hasher) (fed : List UInt8) : Prop where
  total : hasher.total = fed.length
  lanes : hasher.lanes = Lanes.mixBlocks ⟨0, 0⟩ (fed.length / blockSize) fed
  pending : hasher.buffer.toList.take (fed.length % blockSize) =
    fed.drop (fed.length / blockSize * blockSize)

theorem holds_initial : initial.Holds [] :=
  ⟨rfl, rfl, rfl⟩

/-- No check of a write fails, and the hasher then holds what it was fed with it. -/
theorem Holds.write {hasher : Hasher} {fed : List UInt8} (h : hasher.Holds fed)
    (octets : List UInt8) :
    ∃ after, hasher.write octets = .ok after ∧ after.Holds (fed ++ octets) := by
  have hbegin : (hasher.begin octets).Holds fed :=
    ⟨congrArg (· % blockSize) h.total, h.lanes, by rw [← h.pending, ← h.total]; rfl⟩
  obtain ⟨completed, ⟨hcomplete, first, hfirst, hcompleted⟩, hready⟩ := hbegin.completeBlock
  obtain ⟨taken, ⟨htake, second, hsecond, htaken⟩, hroom⟩ := hcompleted.takeBlocks hready
  obtain ⟨buffer, hkeep, hkept⟩ := htaken.keepRest hroom
  have hfed : fed ++ first ++ second ++ taken.rest = fed ++ octets := by
    have hoctets : octets = first ++ (second ++ taken.rest) := hsecond ▸ hfirst
    rw [hoctets, List.append_assoc, List.append_assoc]
  rw [hfed] at hkept
  refine ⟨⟨hasher.total + octets.length, buffer, taken.lanes⟩, ?_, ?_, hkept.lanes, ?_⟩
  · simp only [Hasher.write, hcomplete, htake, hkeep, Except.ok_bind]
    rfl
  · rw [h.total, List.length_append]
  · rw [← hkept.pending, hkept.filled]

/-- The hash depends on what was fed alone. -/
theorem Holds.finish_eq {hasher : Hasher} {fed : List UInt8} (h : hasher.Holds fed) :
    hasher.finish =
      normalize (((Lanes.mixBlocks ⟨0, 0⟩ (fed.length / blockSize) fed).mixTail
        (fed.drop (fed.length / blockSize * blockSize))).conclude fed.length) := by
  unfold Hasher.finish
  simp only [h.total, h.lanes, h.pending]

/-- No check fails, whatever pieces are fed. -/
theorem Holds.foldlM_write {hasher : Hasher} {fed : List UInt8} (h : hasher.Holds fed)
    (pieces : List (List UInt8)) :
    ∃ after, pieces.foldlM Hasher.write hasher = .ok after ∧
      after.Holds (fed ++ pieces.flatten) := by
  induction pieces generalizing hasher fed with
  | nil => exact ⟨hasher, rfl, by simpa using h⟩
  | cons piece rest ih =>
      obtain ⟨next, hwrite, hnext⟩ := h.write piece
      obtain ⟨after, hrest, hafter⟩ := ih hnext
      refine ⟨after, ?_, by simpa using hafter⟩
      rw [List.foldlM_cons, hwrite]
      exact hrest

end Hasher
end Murmur3
end RingRouting
