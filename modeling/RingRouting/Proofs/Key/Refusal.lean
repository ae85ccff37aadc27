import RingRouting.Proofs.Key.Composite

/-!
# Keys that have no layout

A key has a layout unless one of its components is bad.  No key can hold the empty value, a
duration, an `ascii` text with a character past `U+007F`, or a `time` outside the day; and a
key of several columns cannot tell the length of a component of more than 65535 octets.  Where
several components are bad, the first one in the order of the columns decides the error.

Main definitions:

- `Value.Barred`, `Value.Bad`: values that no key can hold, and those that one key cannot.
- `PartitionKey.Fault`: the error that the first bad component of a key calls for.

Main results:

- Theorem `Value.encodeKey_eq_error_iff`: which values are barred, and with which error.
- Theorems `PartitionKey.encode_of_fault` and `PartitionKey.exists_fault`: a key is refused
  with that error, and refused only where there is one.
- Theorem `PartitionKey.refused_by_first_bad_component`: the same of layouts and of tokens.
-/

namespace RingRouting

namespace Value

/-! ## Bad components -/

/-- What bars a value from all keys, with the error that says so. -/
inductive Barred : Value → EncodingError → Prop
  | empty : Barred .empty .emptyKeyComponent
  | duration (length : Duration) : Barred (.duration length) (.unsupportedKeyType .duration)
  | ascii {s : String} (hpast : ∃ c ∈ s.toList, 128 ≤ c.toNat) : Barred (.ascii s) .nonAsciiText
  | time {n : Int64} (hpast : ¬ (0 ≤ n.toInt ∧ n.toInt ≤ 86399999999999)) :
      Barred (.time n) (.valueOverflow .time)

/-- What makes a value a bad component of a key of one column, or of several: it is barred, or
its length does not go into the two octets that tell it where there are several columns. -/
inductive Bad (composite : Bool) (value : Value) : Prop
  | barred {cause : EncodingError} (hbarred : value.Barred cause)
  | tooLong {octets : List UInt8} (hcomposite : composite = true)
      (hencoded : value.encodeKey = .ok octets) (hlong : 65535 < octets.length)

/-- Barred values have no encoding as a component, and all others have one. -/
theorem encodeKey_eq_error_iff {value : Value} {cause : EncodingError} :
    value.encodeKey = .error cause ↔ value.Barred cause := by
  constructor
  · intro h
    cases value with
    | empty =>
        cases h
        exact .empty
    | duration length =>
        cases h
        exact .duration length
    | ascii s =>
        change (if Utf8.isAscii s then _ else _) = _ at h
        split at h
        · cases h
        · rename_i hascii
          cases h
          rw [isAscii_iff] at hascii
          push Not at hascii
          exact .ascii hascii
    | time n =>
        change (if isTimeOfDay n then _ else _) = _ at h
        split at h
        · cases h
        · rename_i htime
          cases h
          exact .time (mt (isTimeOfDay_iff n).2 htime)
    | _ => cases h
  · intro h
    cases h with
    | empty => rfl
    | duration length => rfl
    | @ascii s hpast =>
        obtain ⟨c, hc, hlarge⟩ := hpast
        have hascii : ¬ Utf8.isAscii s = true :=
          fun hall => absurd ((isAscii_iff s).1 hall c hc) (Nat.not_lt.2 hlarge)
        exact if_neg hascii
    | @time n hpast => exact if_neg (mt (isTimeOfDay_iff n).1 hpast)

/-- A component that is not bad has an encoding. -/
theorem exists_encodeKey_of_not_bad {composite : Bool} {value : Value}
    (h : ¬ value.Bad composite) : ∃ octets, value.encodeKey = .ok octets := by
  cases hencoded : value.encodeKey with
  | error cause => exact absurd (.barred (encodeKey_eq_error_iff.1 hencoded)) h
  | ok octets => exact ⟨octets, rfl⟩

/-- Components of a key of several columns that are not bad have encodings which fit. -/
theorem exists_parts_of_not_bad {values : List Value} (h : ∀ value ∈ values, ¬ value.Bad true) :
    ∃ parts, EncodedAs values parts ∧
      ∀ part ∈ parts, part.length ≤ PartitionKey.maxComponentLength := by
  induction values with
  | nil => exact ⟨[], .nil, by simp⟩
  | cons value rest ih =>
      rw [List.forall_mem_cons] at h
      obtain ⟨part, hpart⟩ := exists_encodeKey_of_not_bad h.1
      obtain ⟨parts, hparts, hfit⟩ := ih h.2
      have hshort : part.length ≤ 65535 :=
        Nat.le_of_not_lt fun hlong => h.1 (.tooLong rfl hpart hlong)
      exact ⟨part :: parts, .cons hpart hparts, List.forall_mem_cons.2 ⟨hshort, hfit⟩⟩

end Value

namespace PartitionKey

/-- The error that the first bad component of a key calls for. -/
inductive Fault (key : PartitionKey) : KeyError → Prop
  | component {before after : List Value} {value : Value} {cause : EncodingError}
      (hsplit : key.components = before ++ value :: after)
      (hbefore : ∀ earlier ∈ before, ¬ earlier.Bad key.isComposite)
      (hbarred : value.Barred cause) : Fault key (.component before.length cause)
  | valueTooLong {before after : List Value} {value : Value} {octets : List UInt8}
      (hsplit : key.components = before ++ value :: after)
      (hbefore : ∀ earlier ∈ before, ¬ earlier.Bad key.isComposite)
      (hcomposite : key.isComposite = true) (hencoded : value.encodeKey = .ok octets)
      (hlong : 65535 < octets.length) : Fault key (.valueTooLong octets.length)

/-! ## Frames up to the first bad component -/

theorem encodeComponent_of_barred {value : Value} {cause : EncodingError}
    (hbarred : value.Barred cause) (index : Nat) :
    encodeComponent index value = .error (.component index cause) := by
  rw [encodeComponent, Value.encodeKey_eq_error_iff.2 hbarred]
  rfl

/-- The first bad component ends the frames with its error. -/
theorem encodeFrames_of_first_bad {before after : List Value} {value : Value} {e : KeyError}
    (hbefore : ∀ earlier ∈ before, ¬ earlier.Bad true)
    (hvalue : encodeFrames before.length (value :: after) = .error e) :
    encodeFrames 0 (before ++ value :: after) = .error e := by
  obtain ⟨parts, hencoded, hfit⟩ := Value.exists_parts_of_not_bad hbefore
  rw [encodeFrames_append hencoded hfit, Nat.zero_add, hvalue]
  rfl

theorem encodeFrames_of_barred {value : Value} {cause : EncodingError}
    (hbarred : value.Barred cause) (index : Nat) (after : List Value) :
    encodeFrames index (value :: after) = .error (.component index cause) := by
  rw [encodeFrames, encodeComponent_of_barred hbarred]
  rfl

theorem encodeFrames_of_tooLong {value : Value} {octets : List UInt8}
    (hencoded : value.encodeKey = .ok octets) (hlong : 65535 < octets.length) (index : Nat)
    (after : List Value) :
    encodeFrames index (value :: after) = .error (.valueTooLong octets.length) := by
  have hcomponent : encodeComponent index value = .ok octets :=
    Except.mapError_eq_ok_iff.2 hencoded
  rw [encodeFrames, hcomponent]
  change (if maxComponentLength < octets.length then _ else _) = _
  rw [if_pos (show maxComponentLength < octets.length from hlong)]
  rfl

/-! ## Keys -/

/-- A key that has not several columns has one. -/
theorem exists_only_component {key : PartitionKey} (hsingle : ¬ key.isComposite = true) :
    ∃ value, key.components = [value] ∧ key.encode = encodeComponent 0 value := by
  have hsome := List.length_pos_iff.2 key.components_ne_nil
  have hfew : ¬ 1 < key.components.length := fun hlt => hsingle (decide_eq_true hlt)
  have hone : key.components.length = 1 := by omega
  obtain ⟨value, hcomponents⟩ := List.length_eq_one_iff.1 hone
  refine ⟨value, hcomponents, ?_⟩
  unfold encode
  rw [hcomponents]

/-- A key with a bad component is refused with the error of the first one. -/
theorem encode_of_fault {key : PartitionKey} {e : KeyError} (h : key.Fault e) :
    key.encode = .error e := by
  cases h with
  | @component before after value cause hsplit hbefore hbarred =>
      by_cases hcomposite : key.isComposite = true
      · rw [hcomposite] at hbefore
        rw [encode_of_isComposite hcomposite, hsplit]
        exact encodeFrames_of_first_bad hbefore (encodeFrames_of_barred hbarred _ _)
      · obtain ⟨only, hcomponents, hencode⟩ := exists_only_component hcomposite
        rw [hcomponents, List.singleton_eq_append_iff] at hsplit
        rcases hsplit with ⟨rfl, hcons⟩ | ⟨-, hnil⟩
        · cases hcons
          rw [hencode]
          exact encodeComponent_of_barred hbarred 0
        · cases hnil
  | valueTooLong hsplit hbefore hcomposite hencoded hlong =>
      rw [hcomposite] at hbefore
      rw [encode_of_isComposite hcomposite, hsplit]
      exact encodeFrames_of_first_bad hbefore (encodeFrames_of_tooLong hencoded hlong _ _)

/-- A key without bad components has a layout. -/
theorem exists_encode {key : PartitionKey}
    (h : ∀ value ∈ key.components, ¬ value.Bad key.isComposite) :
    ∃ octets, key.encode = .ok octets := by
  by_cases hcomposite : key.isComposite = true
  · rw [hcomposite] at h
    obtain ⟨parts, hencoded, hfit⟩ := Value.exists_parts_of_not_bad h
    exact ⟨_, encode_eq_ok_of_parts hcomposite hencoded hfit⟩
  · obtain ⟨value, hcomponents, hencode⟩ := exists_only_component hcomposite
    rw [hcomponents, List.forall_mem_singleton] at h
    obtain ⟨octets, hencoded⟩ := Value.exists_encodeKey_of_not_bad h
    exact ⟨octets, hencode.trans (Except.mapError_eq_ok_iff.2 hencoded)⟩

/-- A key with bad components has a first one. -/
theorem exists_fault {key : PartitionKey}
    (h : ∃ value ∈ key.components, value.Bad key.isComposite) : ∃ e, key.Fault e := by
  classical
  let bad : Value → Bool := fun value => decide (value.Bad key.isComposite)
  have hsome : (key.components.find? bad).isSome = true := by
    simpa [List.find?_isSome, bad] using h
  obtain ⟨value, hfind⟩ := Option.isSome_iff_exists.1 hsome
  obtain ⟨hbad, before, after, hsplit, hbefore⟩ := List.find?_eq_some_iff_append.1 hfind
  have hearlier : ∀ earlier ∈ before, ¬ earlier.Bad key.isComposite := by
    simpa [bad] using hbefore
  cases of_decide_eq_true hbad with
  | barred hbarred => exact ⟨_, .component hsplit hearlier hbarred⟩
  | tooLong hcomposite hencoded hlong =>
      exact ⟨_, .valueTooLong hsplit hearlier hcomposite hencoded hlong⟩

theorem encode_eq_error_iff {key : PartitionKey} {e : KeyError} :
    key.encode = .error e ↔ key.Fault e := by
  constructor
  · intro hrefused
    have hbad : ∃ value ∈ key.components, value.Bad key.isComposite := by
      by_contra hnone
      push Not at hnone
      obtain ⟨octets, hencode⟩ := exists_encode hnone
      rw [hencode] at hrefused
      cases hrefused
    obtain ⟨other, hfault⟩ := exists_fault hbad
    rw [encode_of_fault hfault] at hrefused
    cases hrefused
    exact hfault
  · exact encode_of_fault

theorem exists_encode_iff {key : PartitionKey} :
    (∃ octets, key.encode = .ok octets) ↔
      ∀ value ∈ key.components, ¬ value.Bad key.isComposite := by
  constructor
  · rintro ⟨octets, hencode⟩ value hvalue hbad
    obtain ⟨e, hfault⟩ := exists_fault ⟨value, hvalue, hbad⟩
    rw [encode_of_fault hfault] at hencode
    cases hencode
  · exact exists_encode

/-- A key has a layout exactly if none of its components is bad; otherwise it is refused with
the error that the first bad one calls for, which tells its place and why it has no encoding, or
how long its encoding is.  It has a token, or no token but no error, under every partitioner in
the same case, and is refused with the same error.  The values that are barred are those that
have no encoding as a component, with the error that they are refused with.  The only component
of a key may be of any length. -/
theorem refused_by_first_bad_component (key : PartitionKey) :
    ((∃ octets, key.encode = .ok octets) ↔
        ∀ value ∈ key.components, ¬ value.Bad key.isComposite) ∧
      (∀ e, key.encode = .error e ↔ key.Fault e) ∧
      (∀ partitioner : Partitioner,
        ((∃ token, partitioner.token key = .ok token) ↔
            ∀ value ∈ key.components, ¬ value.Bad key.isComposite) ∧
          ∀ e, partitioner.token key = .error e ↔ key.Fault e) ∧
      (∀ value cause, value.Barred cause ↔ Value.encodeKey value = .error cause) ∧
      ∀ value octets, key.components = [value] → value.encodeKey = .ok octets →
        key.encode = .ok octets := by
  refine ⟨exists_encode_iff, fun e => encode_eq_error_iff, fun partitioner => ?_,
    fun value cause => Value.encodeKey_eq_error_iff.symm, ?_⟩
  · rw [← exists_encode_iff]
    simp only [← encode_eq_error_iff, Partitioner.token]
    cases key.encode with
    | error e => simp [Except.map]
    | ok octets => simp [Except.map]
  · intro value octets hcomponents hencoded
    unfold encode
    rw [hcomponents]
    exact Except.mapError_eq_ok_iff.2 hencoded

/-- A component that is too long comes before one that is barred: the length is told.  After one
that is barred it is not.  Alone it is laid out. -/
theorem refused_by_first_bad_component_of_two : ∃ longFirst longLast alone : PartitionKey,
    ∃ long, long.length = 65536 ∧
      longFirst.components = [.int 1, .blob long, .empty] ∧
      longLast.components = [.int 1, .time (-1), .blob long] ∧
      alone.components = [.blob long] ∧
      longFirst.encode = .error (.valueTooLong 65536) ∧
      Partitioner.cdc.token longLast = .error (.component 1 (.valueOverflow .time)) ∧
      alone.encode = .ok long := by
  obtain ⟨long, hlong⟩ : ∃ long : List UInt8, long.length = 65536 :=
    ⟨List.replicate 65536 7, List.length_replicate⟩
  let longFirst : PartitionKey := ⟨[.int 1, .blob long, .empty], by simp⟩
  let longLast : PartitionKey := ⟨[.int 1, .time (-1), .blob long], by simp⟩
  let alone : PartitionKey := ⟨[.blob long], by simp⟩
  have hfits : ¬ (Value.int 1).Bad true := by
    intro hbad
    cases hbad with
    | barred hbarred => cases hbarred
    | tooLong _ hencoded hlong =>
        cases hencoded
        revert hlong
        decide
  have hbefore : ∀ earlier ∈ [Value.int 1], ¬ earlier.Bad true :=
    List.forall_mem_singleton.2 hfits
  have hfirst : longFirst.Fault (.valueTooLong long.length) :=
    @Fault.valueTooLong _ [.int 1] _ _ _ rfl hbefore rfl rfl (by omega)
  have hlast : longLast.Fault (.component 1 (.valueOverflow .time)) :=
    @Fault.component _ [.int 1] _ _ _ rfl hbefore (.time (by decide))
  refine ⟨longFirst, longLast, alone, long, hlong, rfl, rfl, rfl, ?_, ?_, ?_⟩
  · rw [← hlong]
    exact ((refused_by_first_bad_component longFirst).2.1 _).2 hfirst
  · exact (((refused_by_first_bad_component longLast).2.2.1 .cdc).2 _).2 hlast
  · exact (refused_by_first_bad_component alone).2.2.2.2 _ _ rfl rfl

end PartitionKey
end RingRouting
