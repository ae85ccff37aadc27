import RingRouting.Text.Shapeless

/-!
# Quoted text

A text is quoted in double quotes.  The quote, the backslash, the line breaks, the
tab and the character zero have escapes of two characters; other characters without
a shape of their own are written by their number in hexadecimal.

Main definitions:

- `quote`: the quoted form of a text.
-/

namespace RingRouting
namespace Quoted

/-- A character by its number: `\u`, then the hexadecimal digits in braces. -/
def numbered (c : Char) : List Char :=
  ['\\', 'u', '\x7b'] ++ Nat.toDigits 16 c.toNat ++ ['\x7d']

/-- How a character is written between quotes. -/
def escape (c : Char) : List Char :=
  if c = '\x00' then ['\\', '0']
  else if c = '\t' then ['\\', 't']
  else if c = '\r' then ['\\', 'r']
  else if c = '\n' then ['\\', 'n']
  else if c = '\\' then ['\\', '\\']
  else if c = '"' then ['\\', '"']
  else if Shapeless.isShapeless c then numbered c
  else [c]

/-- The quoted form of a text. -/
def quote (text : String) : String :=
  String.ofList ('"' :: text.toList.flatMap escape ++ ['"'])

end Quoted
end RingRouting
