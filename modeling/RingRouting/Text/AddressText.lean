import RingRouting.Address

/-!
# The text of an address

IPv4 addresses are written as four decimal numbers without leading zeros.  IPv6
addresses are written in lower case without leading zeros, the leftmost longest
run of at least two zero groups as `::`; addresses mapped from IPv4 end in the
IPv4 form.  Any of the customary forms of an IPv6 address is read.

Main definitions:

- `Address.toText`: the canonical text.
- `Address.ofText?`: reads any text of an address.
-/

namespace RingRouting
namespace Address

/-! ## Digits -/

/-- The value of a digit in base 16. -/
def digit? (c : Char) : Option Nat :=
  if '0' ≤ c ∧ c ≤ '9' then some (c.toNat - 48)
  else if 'a' ≤ c ∧ c ≤ 'f' then some (c.toNat - 87)
  else if 'A' ≤ c ∧ c ≤ 'F' then some (c.toNat - 55)
  else none

/-- The number that the digits of `base` spell; `none` at any other character. -/
def number? (base : Nat) (text : List Char) : Option Nat :=
  text.foldl (fun n c => do
    let n ← n
    let d ← digit? c
    if d < base then some (n * base + d) else none) (some 0)

/-- The parts of `text` between occurrences of `mark`. -/
def splitAt (mark : Char) (text : List Char) : List (List Char) :=
  text.foldr (fun c parts =>
    if c = mark then [] :: parts
    else match parts with
      | [] => [[c]]
      | part :: rest => (c :: part) :: rest) [[]]

/-! ## IPv4 -/

/-- One number of an IPv4 address: up to three digits, no leading zero, below 256. -/
def decimalOctet? (text : List Char) : Option UInt8 := do
  if text.isEmpty || 3 < text.length || (text.head? == some '0' && text.length != 1) then none
  else
    let n ← number? 10 text
    if n < 256 then some (UInt8.ofNat n) else none

/-- The four octets of an IPv4 address. -/
def quad? (text : List Char) : Option (List UInt8) := do
  let octets ← (splitAt '.' text).mapM decimalOctet?
  if octets.length = 4 then some octets else none

/-! ## IPv6 -/

/-- One group of an IPv6 address: one to four hexadecimal digits. -/
def group? (text : List Char) : Option (List UInt8) := do
  if text.isEmpty || 4 < text.length then none
  else
    let n ← number? 16 text
    some (Octets.bigEndian 2 n)

/-- The octets of groups separated by colons.  The last may be an IPv4 address. -/
def groups? : List (List Char) → Option (List UInt8)
  | [] => some []
  | [last] => if last.contains '.' then quad? last else group? last
  | group :: rest => do
    let first ← group? group
    let others ← groups? rest
    some (first ++ others)

/-- The octets of a side of `::`, where nothing may stand. -/
def side? (text : List Char) : Option (List UInt8) :=
  if text.isEmpty then some [] else groups? (splitAt ':' text)

/-- Splits a text at the first `::`. -/
def splitGap? (front : List Char) : List Char → Option (List Char × List Char)
  | ':' :: ':' :: rest => some (front.reverse, rest)
  | c :: rest => splitGap? (c :: front) rest
  | [] => none

/-- The sixteen octets of an IPv6 address.  A `::` stands for at least one group,
and an IPv4 form may only end the address. -/
def sixteen? (text : List Char) : Option (List UInt8) := do
  match splitGap? [] text with
  | none =>
    let octets ← groups? (splitAt ':' text)
    if octets.length = 16 then some octets else none
  | some (front, back) =>
    let front ← if front.contains '.' then none else side? front
    let back ← side? back
    if front.length + back.length ≤ 14 then
      some (front ++ List.replicate (16 - front.length - back.length) 0 ++ back)
    else none

/-- Reads any text of an address. -/
def ofText? (text : String) : Option Address :=
  match quad? text.toList with
  | some octets => ofOctets? octets
  | none => (sixteen? text.toList).bind ofOctets?

/-! ## Writing -/

/-- The four decimal numbers of an IPv4 address. -/
def quadText (octets : List UInt8) : String :=
  ".".intercalate (octets.map fun octet => toString octet.toNat)

/-- A group in lower-case hexadecimal without leading zeros. -/
def groupText (group : Nat) : String :=
  String.ofList (Nat.toDigits 16 group)

/-- Groups separated by colons. -/
def groupsText (groups : List Nat) : String :=
  ":".intercalate (groups.map groupText)

/-- The sixteen-bit groups of some octets. -/
def groupsOf : List UInt8 → List Nat
  | a :: b :: rest => (a.toNat * 256 + b.toNat) :: groupsOf rest
  | _ => []

/-- The number of zero groups at the front. -/
def leadingZeros (groups : List Nat) : Nat :=
  (groups.takeWhile (· == 0)).length

/-- The position and length of the leftmost longest run of zero groups. -/
def longestZeros (groups : List Nat) : Nat × Nat :=
  (List.range groups.length).foldl (fun best i =>
    let length := leadingZeros (groups.drop i)
    if best.2 < length then (i, length) else best) (0, 0)

/-- The canonical text of sixteen octets. -/
def sixteenText (octets : List UInt8) : String :=
  let groups := groupsOf octets
  if groups.take 6 == [0, 0, 0, 0, 0, 0xFFFF] then
    "::ffff:" ++ quadText (octets.drop 12)
  else
    let (start, length) := longestZeros groups
    if 1 < length then
      groupsText (groups.take start) ++ "::" ++ groupsText (groups.drop (start + length))
    else
      groupsText groups

/-- The canonical text of an address. -/
def toText : Address → String
  | v4 octets => quadText octets.toList
  | v6 octets => sixteenText octets.toList

end Address
end RingRouting
