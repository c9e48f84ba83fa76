/-!
# Decimals and floating-point numbers

A decimal is a natural number of units of a power of ten. Reading one rounds it to the nearest
binary64 value; selecting one finds the fewest digits that read back as a given value. Both speak
about the same reader, so a selected decimal reads back by the very test that selected it.
-/

namespace StoryPlayer

/-- The number `digits * 10 ^ exponent`. -/
structure Decimal where
  digits : Nat
  exponent : Int
deriving Repr, DecidableEq

namespace Decimal

/-- The number of decimal digits, one for zero. -/
def width (n : Nat) : Nat :=
  (Nat.toDigits 10 n).length

/-- The binary64 value nearest to the decimal, a tie going to the even one. A number past the range
in either direction is settled without computing its power of ten. -/
def toFloat (d : Decimal) : Float :=
  let leading : Int := width d.digits + d.exponent
  if d.digits = 0 || leading < -400 then Float.ofScientific 0 false 0
  else if leading > 400 then Float.ofScientific 1 false 400
  else Float.ofScientific d.digits (d.exponent < 0) d.exponent.natAbs

/-- A positive finite binary64 value as a quotient of natural numbers. -/
structure Quotient where
  num : Nat
  den : Nat

/-- The quotient that the bits of a non-negative finite value stand for. -/
def Quotient.ofFloat (x : Float) : Quotient :=
  let bits := x.toBits.toNat
  let fraction := bits % Nat.pow 2 52
  let scale := bits / Nat.pow 2 52 % Nat.pow 2 11
  let m := if scale = 0 then fraction else Nat.pow 2 52 + fraction
  let q : Int := (if scale = 0 then 1 else scale : Nat) - 1075
  ⟨m * Nat.pow 2 q.toNat, Nat.pow 2 (-q).toNat⟩

/-- Counts up from `j` to the first power of ten that lifts the quotient to one. -/
def Quotient.lift (v : Quotient) : Nat → Nat → Nat
  | 0, j => j
  | fuel + 1, j => if v.den ≤ v.num * Nat.pow 10 j then j else Quotient.lift v fuel (j + 1)

/-- The least exponent whose power of ten exceeds the value. -/
def Quotient.magnitude (v : Quotient) : Int :=
  if v.den ≤ v.num then width (v.num / v.den) else 1 - (v.lift 400 1 : Nat)

/-- The value in units of `10 ^ e`, rounded down, and whether the next unit is nearer: `none` when
both are equally near. -/
def Quotient.floorAt (v : Quotient) (e : Int) : Nat × Option Bool :=
  let num := v.num * Nat.pow 10 (-e).toNat
  let den := v.den * Nat.pow 10 e.toNat
  let rest := 2 * (num % den)
  (num / den, if rest = den then none else some (den < rest))

/-- The neighbours of `x` with `n` digits that read back as `x`; of two the nearer one, and of two
equally near ones the even one. -/
def candidate (x : Float) (v : Quotient) (n : Nat) : Option Decimal :=
  let e := v.magnitude - n
  let (low, up) := v.floorAt e
  let below : Decimal := ⟨low, e⟩
  let above : Decimal := ⟨low + 1, e⟩
  match below.toFloat.toBits == x.toBits, above.toFloat.toBits == x.toBits with
  | true, true => some (if up.getD (low % 2 == 1) then above else below)
  | true, false => some below
  | false, true => some above
  | false, false => none

/-- Moves the zeros at the end of the digits into the exponent. -/
def strip : Nat → Decimal → Decimal
  | 0, d => d
  | fuel + 1, d =>
    if d.digits % 10 = 0 && d.digits != 0 then strip fuel ⟨d.digits / 10, d.exponent + 1⟩ else d

/-- The shortest decimal that reads back as the positive finite value `x`, and the nearest to it
among those. Seventeen digits identify every value. -/
def shortest (x : Float) : Decimal :=
  let v := Quotient.ofFloat x
  match (List.range' 1 17).findSome? (candidate x v) with
  | some d => strip (width d.digits) d
  | none => ⟨v.num * Nat.pow 5 (Nat.log2 v.den), -(Nat.log2 v.den : Int)⟩

end Decimal

end StoryPlayer
