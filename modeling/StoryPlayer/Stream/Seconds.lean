import StoryPlayer.Decimal.Notation

/-!
# Numbers of seconds

A timeout is a number of seconds, kept as it was given because the messages about it show it so. The
clock counts whole microseconds. A number of seconds is compared with the clock exactly and rounded
only where an alarm is set, so a time that is shorter than a microsecond is still a time.
-/

namespace StoryPlayer

/-- A number of seconds, given whole or as a floating-point number. -/
inductive Seconds
  | whole (n : Int)
  | float (x : Float)

namespace Seconds

/-- The number as it was given. -/
def write : Seconds → Text
  | whole n => Text.ofInt n
  | float x => Decimal.write x

/-- Whether the time is over when so many microseconds have passed. -/
def isOver (t : Seconds) (passed : Nat) : Bool :=
  match t with
  | whole n => n * 1000000 ≤ passed
  | float x =>
    if x.isFinite then
      let q := Decimal.Quotient.ofFloat x.abs
      x ≤ 0.0 || q.num * 1000000 ≤ passed * q.den
    else x < 0.0

/-- The nearest number of microseconds, or none when the time never comes. -/
def micros? : Seconds → Option Int
  | whole n => some (n * 1000000)
  | float x =>
    if x.isFinite then
      let q := Decimal.Quotient.ofFloat x.abs
      let n : Int := ((2 * q.num * 1000000 + q.den) / (2 * q.den) : Nat)
      some (if x.toBits.toNat < Nat.pow 2 63 then n else -n)
    else if x < 0.0 then some (-1)
    else none

end Seconds

/-- The microseconds in a number of milliseconds. -/
def microsOfMillis (n : Int) : Int :=
  n * 1000

/-- The least whole number that is past the range of binary64, however it is rounded. -/
def floatLimit : Nat :=
  Nat.pow 2 1024 - Nat.pow 2 970

/-- Whether a number of seconds can be added to the time of the clock, which is a binary64 value. -/
def Seconds.isCountable : Seconds → Bool
  | whole n => n.natAbs < floatLimit
  | float _ => true

/-- Whether a number of milliseconds is a binary64 number of seconds. A pause that is none never
ends. -/
def millisCountable (n : Int) : Bool :=
  n.natAbs < 1000 * floatLimit

end StoryPlayer
