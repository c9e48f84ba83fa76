import StoryPlayer.Text.Basic

/-!
# Octets as letters

Three octets are written as four characters of six bits each. Fewer than three at the end are filled
up with zero bits, and equals signs stand for the characters that are missing.
-/

namespace StoryPlayer.Wire

/-- The character of a number of six bits. -/
def sextet (n : Nat) : Char :=
  if n < 26 then Char.ofNat (0x41 + n)
  else if n < 52 then Char.ofNat (0x61 + (n - 26))
  else if n < 62 then Char.ofNat (0x30 + (n - 52))
  else if n = 62 then '+'
  else '/'

/-- The four characters of three octets. -/
def sextets (a b c : UInt8) : Text :=
  let n := (a.toNat * 0x100 + b.toNat) * 0x100 + c.toNat
  [sextet (n / 0x40000), sextet (n / 0x1000 % 0x40), sextet (n / 0x40 % 0x40), sextet (n % 0x40)]

/-- Octets as letters. -/
def base64 : List UInt8 → Text
  | [] => []
  | [a] => (sextets a 0 0).take 2 ++ ['=', '=']
  | [a, b] => (sextets a b 0).take 3 ++ ['=']
  | a :: b :: c :: rest => sextets a b c ++ base64 rest

end StoryPlayer.Wire
