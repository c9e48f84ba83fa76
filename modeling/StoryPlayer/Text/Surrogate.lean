import StoryPlayer.Text.Basic

/-!
# Halves of surrogate pairs

An escape may spell one half of a surrogate pair without the other. Such a half has a code and is no
character, so a text that holds one can be shown and compared but not encoded. In a text it is kept
as a character of the last private plane, from U+10D800 to U+10DFFF. These characters are given up
for that: where a text has one of them, it is taken for the half and cannot be encoded.
-/

namespace StoryPlayer.Text

/-- Whether a code is that of the first half of a pair. -/
def isHighHalf (n : Nat) : Bool :=
  0xD800 ≤ n && n < 0xDC00

/-- Whether a code is that of the second half of a pair. -/
def isLowHalf (n : Nat) : Bool :=
  0xDC00 ≤ n && n < 0xE000

/-- The character that two halves of a pair spell. -/
def ofPair (high low : Nat) : Char :=
  Char.ofNat (0x10000 + (high - 0xD800) * 0x400 + (low - 0xDC00))

/-- How far the characters that stand for halves lie above the codes of the halves. -/
def halfPlane : Nat :=
  0x100000

/-- What a text keeps for a code of sixteen bits. -/
def ofCode (n : Nat) : Char :=
  if isHighHalf n || isLowHalf n then Char.ofNat (halfPlane + n) else Char.ofNat n

/-- Whether a character of a text stands for half of a pair, as all of that part of the plane do. -/
def isHalf (c : Char) : Bool :=
  isHighHalf (c.toNat - halfPlane) || isLowHalf (c.toNat - halfPlane)

/-- The code that a character of a text has, or stands for. -/
def codeOf (c : Char) : Nat :=
  if isHalf c then c.toNat - halfPlane else c.toNat

/-- Whether every character of a text can be encoded. -/
def isWhole (t : Text) : Bool :=
  t.all fun c => !isHalf c

end StoryPlayer.Text
