import StoryPlayer.Text.Basic

/-!
# Decimal digits

A decimal digit of any script stands for a number from zero to nine. The ten digits of a script have
neighbouring codes, so its zero tells them all.
-/

namespace StoryPlayer.Text

/-- The codes of the zeros, ascending. -/
def zeros : List Nat :=
  [0x0030, 0x0660, 0x06F0, 0x07C0, 0x0966, 0x09E6, 0x0A66, 0x0AE6, 0x0B66, 0x0BE6, 0x0C66, 0x0CE6,
   0x0D66, 0x0DE6, 0x0E50, 0x0ED0, 0x0F20, 0x1040, 0x1090, 0x17E0, 0x1810, 0x1946, 0x19D0, 0x1A80,
   0x1A90, 0x1B50, 0x1BB0, 0x1C40, 0x1C50, 0xA620, 0xA8D0, 0xA900, 0xA9D0, 0xA9F0, 0xAA50, 0xABF0,
   0xFF10, 0x104A0, 0x10D30, 0x11066, 0x110F0, 0x11136, 0x111D0, 0x112F0, 0x11450, 0x114D0,
   0x11650, 0x116C0, 0x11730, 0x118E0, 0x11950, 0x11C50, 0x11D50, 0x11DA0, 0x16A60, 0x16AC0,
   0x16B50, 0x1D7CE, 0x1D7D8, 0x1D7E2, 0x1D7EC, 0x1D7F6, 0x1E140, 0x1E2F0, 0x1E950, 0x1FBF0]

/-- The number that a digit stands for. -/
def digit? (c : Char) : Option Nat :=
  (zeros.find? fun z => z ≤ c.toNat && c.toNat < z + 10).map (c.toNat - ·)

/-- Whether a character is a digit of some script. -/
def isDecimal (c : Char) : Bool :=
  (digit? c).isSome

/-- The digits with single underscores between them that a text consists of, as numbers. -/
def digitRun? : Text → Option (List Nat)
  | [] => none
  | [c] => (digit? c).map fun d => [d]
  | c :: '_' :: rest => do return (← digit? c) :: (← digitRun? rest)
  | c :: rest => do return (← digit? c) :: (← digitRun? rest)

/-- The integer of at most `most` digits that a text stands for: digits behind an optional sign, in
the middle of blanks. -/
def toInt? (most : Nat) (t : Text) : Option Int :=
  let (negative, digits) : Bool × Text :=
    match trim t with
    | '-' :: rest => (true, rest)
    | '+' :: rest => (false, rest)
    | rest => (false, rest)
  match digitRun? digits with
  | none => none
  | some ds =>
    if most < ds.length then none
    else
      let n : Int := (ds.foldl (fun n d => n * 10 + d) 0 : Nat)
      some (if negative then -n else n)

end StoryPlayer.Text
