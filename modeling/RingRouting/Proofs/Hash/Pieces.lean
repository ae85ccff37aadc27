import RingRouting.Partitioner
import RingRouting.Proofs.Column.Integers
import RingRouting.Proofs.Hash.Blocks

/-!
# A token does not depend on how octets were cut

A hasher is fed octets in pieces of any sizes, and may be asked for its token at any time.
Each answer is the token of all that was fed until then, as if it had been fed in one piece.

Main definitions:

- `HasherCall`: what can be asked of a hasher.
- `Hasher.perform`: the hasher after some calls, and its answers.
- `Partitioner.Holds`: what a hasher of each partitioner remembers.

Main results:

- Theorem `Hasher.perform_of_writes`: a Murmur3 hasher goes by its checked writes.
- Theorem `Partitioner.Holds.finish_eq`: the token of what was fed is that of the same
  octets in one piece.
- Theorem `Partitioner.cdc_hash`: the token of octets taken as they stand.
- Theorem `Partitioner.pieces_do_not_matter`: every answer of a hasher, after any calls.
-/

namespace RingRouting

/-! ## Calls -/

/-- What can be asked of a hasher. -/
inductive HasherCall where
  /-- To take in a piece. -/
  | write (octets : List UInt8)
  /-- To give the token of everything taken in so far. -/
  | finish

namespace HasherCall

/-- The pieces that are fed, in order. -/
def pieces : List HasherCall → List (List UInt8)
  | [] => []
  | write octets :: rest => octets :: pieces rest
  | finish :: rest => pieces rest

/-- The answers if each is the token of all octets fed before it, as `hash` gives it for
octets in one piece; `fed` are the octets fed already. -/
def tokens (hash : List UInt8 → Option Token) (fed : List UInt8) :
    List HasherCall → List (Option Token)
  | [] => []
  | write octets :: rest => tokens hash (fed ++ octets) rest
  | finish :: rest => hash fed :: tokens hash fed rest

end HasherCall

/-- The hasher after some calls, and the answers it gave. -/
def Hasher.perform (hasher : Hasher) : List HasherCall → Hasher × List (Option Token)
  | [] => (hasher, [])
  | .write octets :: rest => (hasher.write octets).perform rest
  | .finish :: rest =>
    let (after, answers) := hasher.perform rest
    (after, hasher.finish :: answers)

/-- Where no write is refused, a Murmur3 hasher is what its writes have made of it. -/
theorem Hasher.perform_of_writes {hasher after : Murmur3.Hasher} {calls : List HasherCall}
    (h : (HasherCall.pieces calls).foldlM Murmur3.Hasher.write hasher = .ok after) :
    ((murmur3 hasher).perform calls).1 = murmur3 after := by
  induction calls generalizing hasher with
  | nil =>
      cases h
      rfl
  | cons call rest ih =>
      cases call with
      | finish => exact ih h
      | write octets =>
          rw [HasherCall.pieces, List.foldlM_cons] at h
          obtain ⟨next, hwrite, hrest⟩ := Except.bind_eq_ok h
          simp only [perform, write, hwrite]
          exact ih hrest

/-! ## Octets taken as they stand -/

/-- The hasher has kept what it was fed while it is too short for a token, and after that
knows the token. -/
def VerbatimHasher.Holds : VerbatimHasher → List UInt8 → Prop
  | feeding received, fed => received = fed ∧ fed.length < tokenSize
  | computed value, fed =>
    tokenSize ≤ fed.length ∧
      value = (UInt64.ofNat (Octets.ofBigEndian (fed.take tokenSize))).toInt64

theorem VerbatimHasher.Holds.write {hasher : VerbatimHasher} {fed : List UInt8}
    (h : hasher.Holds fed) (octets : List UInt8) :
    (hasher.write octets).Holds (fed ++ octets) := by
  cases hasher with
  | computed value =>
      obtain ⟨henough, rfl⟩ := h
      refine ⟨?_, ?_⟩
      · rw [List.length_append]
        omega
      · rw [List.take_append_of_le_length henough]
  | feeding received =>
      obtain ⟨rfl, hshort⟩ := h
      have htake : received ++ octets.take (tokenSize - received.length) =
          (received ++ octets).take tokenSize := by
        rw [List.take_append, List.take_of_length_le (Nat.le_of_lt hshort)]
      simp only [VerbatimHasher.write, htake]
      by_cases henough : tokenSize ≤ (received ++ octets).length
      · rw [if_pos (by rw [List.length_take]; omega)]
        exact ⟨henough, rfl⟩
      · rw [if_neg (by rw [List.length_take]; omega), List.take_of_length_le (by omega)]
        exact ⟨rfl, by omega⟩

theorem VerbatimHasher.Holds.finish_eq {hasher : VerbatimHasher} {fed : List UInt8}
    (h : hasher.Holds fed) :
    (hasher.finish.map fun value => (⟨value.toInt⟩ : Token)) =
      if fed.length < 8 then none else some ⟨Octets.toInt (fed.take 8)⟩ := by
  cases hasher with
  | feeding received =>
      have hshort : fed.length < 8 := h.2
      rw [if_pos hshort]
      rfl
  | computed value =>
      obtain ⟨hlong, rfl⟩ := h
      have henough : 8 ≤ fed.length := hlong
      have hlength : (fed.take 8).length = 8 := by
        rw [List.length_take]
        exact Nat.min_eq_left henough
      rw [if_neg (Nat.not_lt.2 henough), ← Octets.toInt64_ofBigEndian hlength]
      rfl

/-! ## Hashers -/

namespace Partitioner

/-- What a hasher of the partitioner remembers of what it was fed. -/
def Holds : Partitioner → Hasher → List UInt8 → Prop
  | murmur3, .murmur3 hasher, fed => hasher.Holds fed
  | random, .random written, fed => written = fed
  | cdc, .cdc hasher, fed => hasher.Holds fed
  | _, _, _ => False

theorem holds_hasher (partitioner : Partitioner) : partitioner.Holds partitioner.hasher [] := by
  cases partitioner with
  | murmur3 => exact Murmur3.Hasher.holds_initial
  | random => rfl
  | cdc => exact ⟨rfl, by decide⟩

variable {partitioner : Partitioner} {hasher other : Hasher} {fed : List UInt8}

/-- A piece more is remembered behind what was fed before. -/
theorem Holds.write (h : partitioner.Holds hasher fed) (octets : List UInt8) :
    partitioner.Holds (hasher.write octets) (fed ++ octets) := by
  cases partitioner with
  | murmur3 =>
      cases hasher with
      | murmur3 hasher =>
          obtain ⟨after, hwrite, hafter⟩ := Murmur3.Hasher.Holds.write h octets
          simp only [Hasher.write, hwrite]
          exact hafter
      | random | cdc => cases h
  | random =>
      cases hasher with
      | random written => exact congrArg (· ++ octets) h
      | murmur3 | cdc => cases h
  | cdc =>
      cases hasher with
      | cdc hasher => exact VerbatimHasher.Holds.write h octets
      | murmur3 | random => cases h

/-- The token depends on what was fed alone. -/
theorem Holds.finish_congr (h : partitioner.Holds hasher fed)
    (hother : partitioner.Holds other fed) : hasher.finish = other.finish := by
  cases partitioner with
  | murmur3 =>
      cases hasher with
      | random | cdc => cases h
      | murmur3 hasher =>
          cases other with
          | random | cdc => cases hother
          | murmur3 other =>
              simp only [Hasher.finish, Murmur3.Hasher.Holds.finish_eq h,
                Murmur3.Hasher.Holds.finish_eq hother]
  | random =>
      cases hasher with
      | murmur3 | cdc => cases h
      | random written =>
          cases other with
          | murmur3 | cdc => cases hother
          | random rewritten =>
              cases h
              cases hother
              rfl
  | cdc =>
      cases hasher with
      | murmur3 | random => cases h
      | cdc hasher =>
          cases other with
          | murmur3 | random => cases hother
          | cdc other =>
              simp only [Hasher.finish, VerbatimHasher.Holds.finish_eq h,
                VerbatimHasher.Holds.finish_eq hother]

/-- The token of what was fed is that of the same octets in one piece. -/
theorem Holds.finish_eq (h : partitioner.Holds hasher fed) :
    hasher.finish = partitioner.hash fed := by
  have hwhole := (holds_hasher partitioner).write fed
  rw [List.nil_append] at hwhole
  exact h.finish_congr hwhole

/-- What is remembered after some calls, and what they answered. -/
theorem Holds.perform (h : partitioner.Holds hasher fed) (calls : List HasherCall) :
    partitioner.Holds (hasher.perform calls).1 (fed ++ (HasherCall.pieces calls).flatten) ∧
      (hasher.perform calls).2 = HasherCall.tokens partitioner.hash fed calls := by
  induction calls generalizing hasher fed with
  | nil => exact ⟨by simpa [Hasher.perform, HasherCall.pieces] using h, rfl⟩
  | cons call rest ih =>
      cases call with
      | write octets =>
          have hrest := ih (h.write octets)
          rw [List.append_assoc] at hrest
          exact hrest
      | finish =>
          obtain ⟨hafter, hanswers⟩ := ih h
          refine ⟨hafter, ?_⟩
          rw [HasherCall.tokens, ← hanswers, ← h.finish_eq]
          rfl

/-- Octets taken as they stand have a token once there are eight. -/
theorem cdc_hash (octets : List UInt8) :
    cdc.hash octets = if octets.length < 8 then none else some ⟨Octets.toInt (octets.take 8)⟩ := by
  have hwhole := (holds_hasher cdc).write octets
  exact VerbatimHasher.Holds.finish_eq hwhole

/-- Whatever calls are made to a fresh hasher, each answer, and the one that would come next,
is the token of everything fed before it in one piece.  The Murmur3 hasher takes in all of the
pieces, and is what these writes have made of it: no write reads or stores octets out of range, and
none of the conditions that it relies on fails.  Octets taken as they stand have no token while
there are fewer than eight, and after that the first eight, read as a signed number. -/
theorem pieces_do_not_matter (partitioner : Partitioner) (calls : List HasherCall) :
    let fed := (HasherCall.pieces calls).flatten
    (partitioner.hasher.perform calls).1.finish = partitioner.hash fed ∧
      (partitioner.hasher.perform calls).2 = HasherCall.tokens partitioner.hash [] calls ∧
      (∃ hasher, (HasherCall.pieces calls).foldlM Murmur3.Hasher.write .initial = .ok hasher ∧
        (murmur3.hasher.perform calls).1 = .murmur3 hasher) ∧
      cdc.hash fed =
        if fed.length < 8 then none else some ⟨Octets.toInt (fed.take 8)⟩ := by
  intro fed
  have hcalls := (holds_hasher partitioner).perform calls
  have hfed : ([] : List UInt8) ++ (HasherCall.pieces calls).flatten = fed := List.nil_append _
  rw [hfed] at hcalls
  obtain ⟨hasher, hwritten, -⟩ :=
    Murmur3.Hasher.holds_initial.foldlM_write (HasherCall.pieces calls)
  exact ⟨hcalls.1.finish_eq, hcalls.2, ⟨hasher, hwritten, Hasher.perform_of_writes hwritten⟩,
    cdc_hash fed⟩

end Partitioner
end RingRouting
