/-!
# UTF-8

Text is written as UTF-8 and read back from octets that may be anything.  A
refusal says how far the octets were well formed and how many octets make up the
longest start of a character that no continuation can save.

Main definitions:

- `encode`: the octets of a text.
- `decode`: the text, or the first `Fault`.
-/

namespace RingRouting
namespace Utf8

/-- The octets of a text. -/
def encode (text : String) : List UInt8 :=
  text.toList.flatMap String.utf8EncodeChar

/-- Whether every character of the text is below `U+0080`. -/
def isAscii (text : String) : Bool :=
  text.toList.all fun c => c.val < 0x80

/-! ## What a first octet announces -/

/-- What the first octet of a character announces: the payload bits it carries
itself, how many octets follow, and the range of the first of them.  The range is
what excludes overlong forms, surrogates and numbers past `U+10FFFF`. -/
structure Lead where
  payload : Nat
  following : Nat
  low : UInt8
  high : UInt8

/-- Reads a first octet; continuation octets and octets that never occur announce
nothing. -/
def Lead.ofOctet? (octet : UInt8) : Option Lead :=
  if octet < 0x80 then some ⟨octet.toNat, 0, 0x80, 0xBF⟩
  else if octet < 0xC2 then none
  else if octet < 0xE0 then some ⟨octet.toNat % 32, 1, 0x80, 0xBF⟩
  else if octet < 0xF0 then
    some ⟨octet.toNat % 16, 2,
      if octet = 0xE0 then 0xA0 else 0x80,
      if octet = 0xED then 0x9F else 0xBF⟩
  else if octet < 0xF5 then
    some ⟨octet.toNat % 8, 3,
      if octet = 0xF0 then 0x90 else 0x80,
      if octet = 0xF4 then 0x8F else 0xBF⟩
  else none

/-! ## Reading one character -/

/-- What stands at the front of some octets. -/
inductive Scan where
  /-- A character written in `size` octets. -/
  | char (c : Char) (size : Nat)
  /-- `size` octets that no continuation makes a character. -/
  | malformed (size : Nat)
  /-- The start of a character, cut off by the end of the octets. -/
  | truncated
deriving DecidableEq

/-- Reads the octets that follow a first octet.  `seen` octets of the character
are behind, `following` are to come, and the next has to lie in `low..high`. -/
def scanRest (payload seen : Nat) (low high : UInt8) : Nat → List UInt8 → Scan
  | 0, _ => .char (Char.ofNat payload) seen
  | _ + 1, [] => .truncated
  | following + 1, octet :: rest =>
    if low ≤ octet ∧ octet ≤ high then
      scanRest (payload * 64 + octet.toNat % 64) (seen + 1) 0x80 0xBF following rest
    else
      .malformed seen

/-- Reads the character that starts with `octet`. -/
def scan (octet : UInt8) (rest : List UInt8) : Scan :=
  match Lead.ofOctet? octet with
  | none => .malformed 1
  | some lead => scanRest lead.payload 1 lead.low lead.high lead.following rest

/-! ## Reading a text -/

/-- Why octets are not UTF-8.  `index` octets before the fault are well formed. -/
inductive Fault where
  /-- `length` octets from `index` start no character. -/
  | malformed (index length : Nat)
  /-- The octets end inside the character that starts at `index`. -/
  | truncated (index : Nat)
deriving DecidableEq

/-- The wording of a fault. -/
def Fault.message : Fault → String
  | .malformed index length =>
    s!"invalid utf-8 sequence of {length} bytes from index {index}"
  | .truncated index => s!"incomplete utf-8 byte sequence from index {index}"

/-- Reads characters from `octets`; `index` octets are behind, and `read` holds
their characters, last first. -/
def decodeFrom (index : Nat) (read : List Char) (octets : List UInt8) :
    Except Fault (List Char) :=
  match octets with
  | [] => .ok read.reverse
  | octet :: rest =>
    match scan octet rest with
    | .char c size => decodeFrom (index + size) (c :: read) (rest.drop (size - 1))
    | .malformed size => .error (.malformed index size)
    | .truncated => .error (.truncated index)
termination_by octets.length
decreasing_by
  simp only [List.length_drop, List.length_cons]
  omega

/-- The text that the octets spell, or the first fault. -/
def decode (octets : List UInt8) : Except Fault String :=
  (decodeFrom 0 [] octets).map String.ofList

end Utf8
end RingRouting
