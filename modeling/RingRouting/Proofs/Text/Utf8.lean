import Mathlib.Tactic.IntervalCases
import RingRouting.Proofs.Results
import RingRouting.Text.Utf8

/-!
# Text is read as it was written, and written as it was read

A character is written in one to four octets.  The first octet announces how many follow and
where the first of them may lie; the numbers of characters are such that what is written
always lies there.  Reading a text therefore gives back its characters one by one.  Since the
octets that may follow exclude longer forms, no other octets are read as the same text.

Main results:

- Theorem `Utf8.scan_encodeChar`: a character is read as it was written.
- Theorem `Utf8.decode_encode`: a text is read as it was written.
- Theorem `Utf8.encode_lt_of_isAscii`: the octets of a text of low characters are low.
- Theorem `Utf8.encodeChar_of_scan`: a character is written in the octets it was read from.
- Theorem `Utf8.encode_of_decode`: a text is written in the octets it was read from.
-/

namespace RingRouting
namespace Utf8

open String (utf8EncodeChar)

/-! ## First octets -/

/-- The first octet of two.  Numbers below `U+0080` are written in one octet. -/
theorem lead_two {n : Nat} (hlow : 2 ≤ n) (hhigh : n < 32) :
    Lead.ofOctet? (UInt8.ofNat (n + 192)) = some ⟨n, 1, 0x80, 0xBF⟩ := by
  interval_cases n <;> rfl

/-- The first octet of three.  The octet after it excludes numbers that are written in two
octets, and surrogates. -/
theorem lead_three {n : Nat} (hhigh : n < 16) :
    Lead.ofOctet? (UInt8.ofNat (n + 224)) =
      some ⟨n, 2, if n = 0 then 0xA0 else 0x80, if n = 13 then 0x9F else 0xBF⟩ := by
  interval_cases n <;> rfl

/-- The first octet of four.  The octet after it excludes numbers that are written in three
octets, and numbers past the last character. -/
theorem lead_four {n : Nat} (hhigh : n < 5) :
    Lead.ofOctet? (UInt8.ofNat (n + 240)) =
      some ⟨n, 3, if n = 0 then 0x90 else 0x80, if n = 4 then 0x8F else 0xBF⟩ := by
  interval_cases n <;> rfl

/-! ## Characters -/

/-- An octet that lies where it may adds its six digits to the number read so far. -/
theorem scanRest_cons {payload seen following n : Nat} {low high : UInt8} (rest : List UInt8)
    (hn : n < 64) (hlow : low.toNat ≤ n + 128) (hhigh : n + 128 ≤ high.toNat) :
    scanRest payload seen low high (following + 1) (UInt8.ofNat (n + 128) :: rest) =
      scanRest (payload * 64 + n) (seen + 1) 0x80 0xBF following rest := by
  have hoctet : (UInt8.ofNat (n + 128)).toNat = n + 128 := by
    rw [UInt8.toNat_ofNat']
    omega
  have hwithin : low ≤ UInt8.ofNat (n + 128) ∧ UInt8.ofNat (n + 128) ≤ high := by
    rw [UInt8.le_iff_toNat_le, UInt8.le_iff_toNat_le, hoctet]
    exact ⟨hlow, hhigh⟩
  have hdigits : (n + 128) % 64 = n := by omega
  rw [scanRest, if_pos hwithin, hoctet, hdigits]

/-- A number below `U+0080` is read from one octet. -/
theorem scan_one {v : Nat} (hhigh : v ≤ 127) (rest : List UInt8) :
    scan (UInt8.ofNat v) rest = .char (Char.ofNat v) 1 := by
  have hoctet : (UInt8.ofNat v).toNat = v := by
    rw [UInt8.toNat_ofNat']
    omega
  have hlow : UInt8.ofNat v < 0x80 := by
    rw [UInt8.lt_iff_toNat_lt, hoctet]
    exact Nat.lt_succ_of_le hhigh
  simp only [scan, Lead.ofOctet?, if_pos hlow, scanRest, hoctet]

/-- A number of up to eleven digits is read from two octets. -/
theorem scan_two {v : Nat} (hlow : 127 < v) (hhigh : v ≤ 2047) (rest : List UInt8) :
    scan (UInt8.ofNat (v / 64 % 32 + 192)) (UInt8.ofNat (v % 64 + 128) :: rest) =
      .char (Char.ofNat v) 2 := by
  have hnumber : (v / 64 % 32) * 64 + v % 64 = v := by omega
  rw [scan, lead_two (by omega) (by omega)]
  simp only
  rw [scanRest_cons _ (by omega) (by simp) (by simp; omega), scanRest, hnumber]

/-- A number of up to sixteen digits, if it is no surrogate, is read from three octets. -/
theorem scan_three {v : Nat} (hlow : 2047 < v) (hhigh : v ≤ 65535)
    (hsurrogate : v < 0xD800 ∨ 0xDFFF < v) (rest : List UInt8) :
    scan (UInt8.ofNat (v / 4096 % 16 + 224))
        (UInt8.ofNat (v / 64 % 64 + 128) :: UInt8.ofNat (v % 64 + 128) :: rest) =
      .char (Char.ofNat v) 3 := by
  have hnumber : ((v / 4096 % 16) * 64 + v / 64 % 64) * 64 + v % 64 = v := by omega
  rw [scan, lead_three (by omega)]
  simp only
  rw [scanRest_cons _ (by omega) (by split <;> simp; omega) (by split <;> simp <;> omega),
    scanRest_cons _ (by omega) (by simp) (by simp; omega), scanRest, hnumber]

/-- A number past those, up to the last character's, is read from four octets. -/
theorem scan_four {v : Nat} (hlow : 65535 < v) (hhigh : v < 0x110000) (rest : List UInt8) :
    scan (UInt8.ofNat (v / 262144 % 8 + 240))
        (UInt8.ofNat (v / 4096 % 64 + 128) :: UInt8.ofNat (v / 64 % 64 + 128) ::
          UInt8.ofNat (v % 64 + 128) :: rest) =
      .char (Char.ofNat v) 4 := by
  have hnumber : (((v / 262144 % 8) * 64 + v / 4096 % 64) * 64 + v / 64 % 64) * 64 +
      v % 64 = v := by omega
  rw [scan, lead_four (by omega)]
  simp only
  rw [scanRest_cons _ (by omega) (by split <;> simp; omega) (by split <;> simp <;> omega),
    scanRest_cons _ (by omega) (by simp) (by simp; omega),
    scanRest_cons _ (by omega) (by simp) (by simp; omega), scanRest, hnumber]

/-- A character below `U+0080` is written in one octet. -/
theorem encodeChar_one {c : Char} (h : c.val.toNat ≤ 127) :
    utf8EncodeChar c = [UInt8.ofNat c.val.toNat] := by
  simp only [utf8EncodeChar, if_pos h]

/-- A character is read as it was written, whatever follows it. -/
theorem scan_encodeChar (c : Char) (rest : List UInt8) :
    ∃ octet more, utf8EncodeChar c = octet :: more ∧
      scan octet (more ++ rest) = .char c (more.length + 1) := by
  have hchar : Char.ofNat c.val.toNat = c := Char.ofNat_toNat c
  have hvalid : c.val.toNat < 0xD800 ∨ 0xDFFF < c.val.toNat ∧ c.val.toNat < 0x110000 := c.valid
  unfold utf8EncodeChar
  simp only
  generalize c.val.toNat = v at hchar hvalid
  subst hchar
  split
  · rename_i hone
    exact ⟨_, [], rfl, scan_one hone _⟩
  · rename_i hone
    split
    · rename_i htwo
      exact ⟨_, [_], rfl, scan_two (by omega) htwo _⟩
    · rename_i htwo
      split
      · rename_i hthree
        exact ⟨_, [_, _], rfl, scan_three (by omega) hthree (by omega) _⟩
      · rename_i hthree
        exact ⟨_, [_, _, _], rfl, scan_four (by omega) (by omega) _⟩

/-! ## Texts -/

/-- Characters are read one by one. -/
theorem decodeFrom_encode (chars : List Char) (index : Nat) (read : List Char) :
    decodeFrom index read (chars.flatMap utf8EncodeChar) = .ok (read.reverse ++ chars) := by
  induction chars generalizing index read with
  | nil => simp [decodeFrom]
  | cons c rest ih =>
      obtain ⟨octet, more, hwritten, hscan⟩ := scan_encodeChar c (rest.flatMap utf8EncodeChar)
      rw [List.flatMap_cons, hwritten, List.cons_append, decodeFrom]
      simp only [hscan, Nat.add_sub_cancel, List.drop_left']
      rw [ih]
      simp

/-- A text is read as it was written. -/
theorem decode_encode (text : String) : decode (encode text) = .ok text := by
  rw [decode, encode, decodeFrom_encode, List.reverse_nil, List.nil_append]
  exact congrArg Except.ok String.ofList_toList

/-- The octets of a text of characters below `U+0080` lie below `0x80`. -/
theorem encode_lt_of_isAscii {text : String} (h : isAscii text = true) :
    (encode text).all (· < 0x80) = true := by
  unfold isAscii at h
  rw [List.all_eq_true] at h ⊢
  intro octet hoctet
  obtain ⟨c, hc, hwritten⟩ := List.mem_flatMap.1 hoctet
  have hlow : c.val.toNat < 128 := by simpa [UInt32.lt_iff_toNat_lt] using h c hc
  rw [encodeChar_one (by omega), List.mem_singleton] at hwritten
  rw [hwritten, decide_eq_true_eq, UInt8.lt_iff_toNat_lt, UInt8.toNat_ofNat']
  exact Nat.lt_of_le_of_lt (Nat.mod_le _ _) hlow

/-! ## Writing what was read -/

/-- The number of a character that has that number. -/
theorem val_ofNat {v : Nat} (h : v < 0xD800 ∨ 0xDFFF < v ∧ v < 0x110000) :
    (Char.ofNat v).val.toNat = v := by
  have hvalid : v.isValidChar := h
  rw [Char.ofNat, dif_pos hvalid]
  rfl

/-- A character that was read from two octets is written in them. -/
theorem encodeChar_two {first second : UInt8}
    (hfirst : 194 ≤ first.toNat ∧ first.toNat < 224)
    (hsecond : 128 ≤ second.toNat ∧ second.toNat ≤ 191) :
    utf8EncodeChar (Char.ofNat (first.toNat % 32 * 64 + second.toNat % 64)) =
      [first, second] := by
  generalize hv : first.toNat % 32 * 64 + second.toNat % 64 = v
  have hleft : v / 64 % 32 + 192 = first.toNat := by omega
  have hright : v % 64 + 128 = second.toNat := by omega
  unfold utf8EncodeChar
  simp only [val_ofNat (v := v) (by omega)]
  rw [if_neg (by omega), if_pos (by omega), hleft, hright, UInt8.ofNat_toNat, UInt8.ofNat_toNat]

/-- A character that was read from three octets is written in them. -/
theorem encodeChar_three {first second third : UInt8}
    (hfirst : 224 ≤ first.toNat ∧ first.toNat < 240)
    (hsecond : 128 ≤ second.toNat ∧ second.toNat ≤ 191)
    (hshort : first.toNat = 224 → 160 ≤ second.toNat)
    (hsurrogate : first.toNat = 237 → second.toNat ≤ 159)
    (hthird : 128 ≤ third.toNat ∧ third.toNat ≤ 191) :
    utf8EncodeChar (Char.ofNat
        ((first.toNat % 16 * 64 + second.toNat % 64) * 64 + third.toNat % 64)) =
      [first, second, third] := by
  generalize hv : (first.toNat % 16 * 64 + second.toNat % 64) * 64 + third.toNat % 64 = v
  have hone : v / 4096 % 16 + 224 = first.toNat := by omega
  have htwo : v / 64 % 64 + 128 = second.toNat := by omega
  have hlast : v % 64 + 128 = third.toNat := by omega
  unfold utf8EncodeChar
  simp only [val_ofNat (v := v) (by omega)]
  rw [if_neg (by omega), if_neg (by omega), if_pos (by omega), hone, htwo, hlast]
  simp only [UInt8.ofNat_toNat]

/-- A character that was read from four octets is written in them. -/
theorem encodeChar_four {first second third fourth : UInt8}
    (hfirst : 240 ≤ first.toNat ∧ first.toNat < 245)
    (hsecond : 128 ≤ second.toNat ∧ second.toNat ≤ 191)
    (hshort : first.toNat = 240 → 144 ≤ second.toNat)
    (hlarge : first.toNat = 244 → second.toNat ≤ 143)
    (hthird : 128 ≤ third.toNat ∧ third.toNat ≤ 191)
    (hfourth : 128 ≤ fourth.toNat ∧ fourth.toNat ≤ 191) :
    utf8EncodeChar (Char.ofNat
        (((first.toNat % 8 * 64 + second.toNat % 64) * 64 + third.toNat % 64) * 64 +
          fourth.toNat % 64)) =
      [first, second, third, fourth] := by
  generalize hv : ((first.toNat % 8 * 64 + second.toNat % 64) * 64 + third.toNat % 64) * 64 +
    fourth.toNat % 64 = v
  have hone : v / 262144 % 8 + 240 = first.toNat := by omega
  have htwo : v / 4096 % 64 + 128 = second.toNat := by omega
  have hthree : v / 64 % 64 + 128 = third.toNat := by omega
  have hlast : v % 64 + 128 = fourth.toNat := by omega
  unfold utf8EncodeChar
  simp only [val_ofNat (v := v) (by omega)]
  rw [if_neg (by omega), if_neg (by omega), if_neg (by omega), hone, htwo, hthree, hlast]
  simp only [UInt8.ofNat_toNat]

/-- What a first octet can announce: how many octets follow it, and where the first of them
may lie. -/
inductive Announces (octet : UInt8) : Lead → Prop where
  | one (hoctet : octet.toNat < 128) : Announces octet ⟨octet.toNat, 0, 0x80, 0xBF⟩
  | two (hoctet : 194 ≤ octet.toNat ∧ octet.toNat < 224) :
      Announces octet ⟨octet.toNat % 32, 1, 0x80, 0xBF⟩
  | three {low high : UInt8} (hoctet : 224 ≤ octet.toNat ∧ octet.toNat < 240)
      (hwithin : 128 ≤ low.toNat ∧ high.toNat ≤ 191)
      (hshort : octet.toNat = 224 → 160 ≤ low.toNat)
      (hsurrogate : octet.toNat = 237 → high.toNat ≤ 159) :
      Announces octet ⟨octet.toNat % 16, 2, low, high⟩
  | four {low high : UInt8} (hoctet : 240 ≤ octet.toNat ∧ octet.toNat < 245)
      (hwithin : 128 ≤ low.toNat ∧ high.toNat ≤ 191)
      (hshort : octet.toNat = 240 → 144 ≤ low.toNat)
      (hlarge : octet.toNat = 244 → high.toNat ≤ 143) :
      Announces octet ⟨octet.toNat % 8, 3, low, high⟩

theorem announces {octet : UInt8} {lead : Lead} (h : Lead.ofOctet? octet = some lead) :
    Announces octet lead := by
  have hvalue : ∀ n : UInt8, octet = n ↔ octet.toNat = n.toNat := fun n => UInt8.toNat_inj.symm
  unfold Lead.ofOctet? at h
  simp only [UInt8.lt_iff_toNat_lt, hvalue, UInt8.reduceToNat] at h
  split at h
  · rename_i hone
    cases h
    exact .one hone
  split at h
  · cases h
  split at h
  · cases h
    exact .two (by omega)
  split at h
  · cases h
    refine .three (by omega) ⟨?_, ?_⟩ ?_ ?_
    · split <;> decide
    · split <;> decide
    · intro hfirst
      rw [if_pos hfirst]
      decide
    · intro hfirst
      rw [if_pos hfirst]
      decide
  split at h
  · cases h
    refine .four (by omega) ⟨?_, ?_⟩ ?_ ?_
    · split <;> decide
    · split <;> decide
    · intro hfirst
      rw [if_pos hfirst]
      decide
    · intro hfirst
      rw [if_pos hfirst]
      decide
  · cases h

/-- An octet that was read after others lay where it may, and added its six digits. -/
theorem scanRest_eq_char {payload seen following size : Nat} {low high : UInt8}
    {rest : List UInt8} {c : Char}
    (h : scanRest payload seen low high (following + 1) rest = .char c size) :
    ∃ octet more, rest = octet :: more ∧ (low.toNat ≤ octet.toNat ∧ octet.toNat ≤ high.toNat) ∧
      scanRest (payload * 64 + octet.toNat % 64) (seen + 1) 0x80 0xBF following more =
        .char c size := by
  cases rest with
  | nil => cases h
  | cons octet more =>
      rw [scanRest] at h
      split at h
      · rename_i hwithin
        rw [UInt8.le_iff_toNat_le, UInt8.le_iff_toNat_le] at hwithin
        exact ⟨octet, more, rfl, hwithin, h⟩
      · cases h

/-- A character that was read is written in the octets that it was read from. -/
theorem encodeChar_of_scan {octet : UInt8} {rest : List UInt8} {c : Char} {size : Nat}
    (h : scan octet rest = .char c size) :
    octet :: rest = utf8EncodeChar c ++ rest.drop (size - 1) := by
  unfold scan at h
  split at h
  · cases h
  · rename_i lead hlead
    cases announces hlead with
    | one hoctet =>
        simp only [scanRest] at h
        cases h
        have hnumber : (Char.ofNat octet.toNat).val.toNat = octet.toNat := val_ofNat (by omega)
        rw [encodeChar_one (by omega), hnumber, UInt8.ofNat_toNat]
        rfl
    | two hoctet =>
        obtain ⟨second, more, rfl, hsecond, h⟩ := scanRest_eq_char h
        cases h
        rw [encodeChar_two hoctet hsecond]
        rfl
    | three hoctet hwithin hshort hsurrogate =>
        obtain ⟨second, _, rfl, hsecond, h⟩ := scanRest_eq_char h
        obtain ⟨third, more, rfl, hthird, h⟩ := scanRest_eq_char h
        cases h
        simp only at hsecond
        rw [encodeChar_three hoctet (by omega) (by omega) (by omega) hthird]
        rfl
    | four hoctet hwithin hshort hlarge =>
        obtain ⟨second, _, rfl, hsecond, h⟩ := scanRest_eq_char h
        obtain ⟨third, _, rfl, hthird, h⟩ := scanRest_eq_char h
        obtain ⟨fourth, more, rfl, hfourth, h⟩ := scanRest_eq_char h
        cases h
        simp only at hsecond
        rw [encodeChar_four hoctet (by omega) (by omega) (by omega) hthird hfourth]
        rfl

/-- Characters that were read are written in the octets that they were read from. -/
theorem encode_of_decodeFrom {index : Nat} {read chars : List Char} {octets : List UInt8}
    (h : decodeFrom index read octets = .ok chars) :
    ∃ last, chars = read.reverse ++ last ∧ octets = last.flatMap utf8EncodeChar := by
  induction index, read, octets using decodeFrom.induct with
  | case1 index read =>
      rw [decodeFrom] at h
      cases h
      exact ⟨[], (List.append_nil _).symm, rfl⟩
  | case2 index read octet rest c size hscan ih =>
      rw [decodeFrom, hscan] at h
      obtain ⟨last, hchars, hoctets⟩ := ih h
      refine ⟨c :: last, ?_, ?_⟩
      · rw [hchars, List.reverse_cons, List.append_assoc]
        rfl
      · rw [List.flatMap_cons, ← hoctets]
        exact encodeChar_of_scan hscan
  | case3 index read octet rest size hscan =>
      rw [decodeFrom, hscan] at h
      cases h
  | case4 index read octet rest hscan =>
      rw [decodeFrom, hscan] at h
      cases h

/-- A text that was read is written in the octets that it was read from. -/
theorem encode_of_decode {octets : List UInt8} {text : String} (h : decode octets = .ok text) :
    encode text = octets := by
  obtain ⟨chars, hchars, rfl⟩ := Except.map_eq_ok h
  obtain ⟨last, rfl, hoctets⟩ := encode_of_decodeFrom hchars
  rw [encode, String.toList_ofList, hoctets]

/-- Every character past `U+007F` has an octet past `0x7F`. -/
theorem exists_le_of_encodeChar {c : Char} (h : 127 < c.val.toNat) :
    ∃ octet ∈ utf8EncodeChar c, 128 ≤ octet.toNat := by
  refine ⟨UInt8.ofNat (c.val.toNat % 64 + 128), ?_, ?_⟩
  · unfold utf8EncodeChar
    simp only
    rw [if_neg (by omega)]
    split
    · simp
    · split <;> simp
  · rw [UInt8.toNat_ofNat']
    omega

/-- Octets below `0x80` are those of a text of characters below `U+0080`. -/
theorem isAscii_of_encode_lt {text : String} (h : (encode text).all (· < 0x80) = true) :
    isAscii text = true := by
  unfold isAscii
  rw [List.all_eq_true] at h ⊢
  intro c hc
  rw [decide_eq_true_eq, UInt32.lt_iff_toNat_lt]
  by_contra hhigh
  obtain ⟨octet, hoctet, hle⟩ := exists_le_of_encodeChar (Nat.le_of_not_lt hhigh)
  have hlow := h octet (List.mem_flatMap.2 ⟨c, hc, hoctet⟩)
  rw [decide_eq_true_eq, UInt8.lt_iff_toNat_lt] at hlow
  exact absurd hle (Nat.not_le.2 hlow)

end Utf8
end RingRouting
