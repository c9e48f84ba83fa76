import StoryPlayer.Decimal.Basic
import StoryPlayer.Text.Basic

/-!
# How floating-point numbers are written

A number is written with the fewest digits that read back. It is written positionally, always with
its point, while its leading digit stands in a range that a `Style` bounds from below and that ends
at `10 ^ 15`; otherwise it has an exponent, whose form is the style's. Zero keeps its sign.
-/

namespace StoryPlayer.Decimal

/-- The choices between the ways to write a number. -/
structure Style where
  /-- The least place of the leading digit of a positional number. -/
  lowest : Int
  /-- What stands in front of an exponent that is not negative. -/
  plus : Text
  /-- The digits that an exponent has at least. -/
  exponentWidth : Nat
deriving Repr, DecidableEq

namespace Style

/-- Numbers that are shown have a signed exponent of two digits. -/
def shown : Style :=
  ⟨-4, ['+'], 2⟩

/-- Numbers that are stored have a signed exponent of as few digits as it needs. -/
def stored : Style :=
  ⟨-5, ['+'], 1⟩

end Style

/-- Fills a text with zeros at the end, up to `width` characters. -/
def padRight (width : Nat) (t : Text) : Text :=
  t ++ List.replicate (width - t.length) '0'

/-- Writes a non-zero decimal without zeros at the end. -/
def layout (style : Style) (d : Decimal) : Text :=
  let digits := Text.ofNat d.digits
  let lead : Int := digits.length - 1 + d.exponent
  if lead < style.lowest || 15 < lead then
    let mantissa :=
      match digits with
      | first :: more@(_ :: _) => first :: '.' :: more
      | single => single
    let size := Text.ofNat lead.natAbs
    mantissa ++ 'e' :: (if lead < 0 then ['-'] else style.plus) ++
      List.replicate (style.exponentWidth - size.length) '0' ++ size
  else if lead < 0 then
    ['0', '.'] ++ List.replicate (lead.natAbs - 1) '0' ++ digits
  else
    let whole := lead.toNat + 1
    let tail := digits.drop whole
    padRight whole (digits.take whole) ++ '.' :: (if tail = [] then ['0'] else tail)

/-- The written form of a floating-point number in a style. -/
def writeIn (style : Style) (x : Float) : Text :=
  if x.isNaN then ['n', 'a', 'n']
  else
    let sign : Text := if x.toBits.toNat < Nat.pow 2 63 then [] else ['-']
    let size := x.abs
    sign ++
      (if size.isInf then ['i', 'n', 'f']
        else if size.toBits.toNat = 0 then ['0', '.', '0']
        else layout style (shortest size))

/-- The form in which a floating-point number is shown. -/
def write (x : Float) : Text :=
  writeIn .shown x

end StoryPlayer.Decimal
