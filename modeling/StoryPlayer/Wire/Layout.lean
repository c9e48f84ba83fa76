import StoryPlayer.Text.Surrogate
import StoryPlayer.Wire.Utf8

/-!
# The layout of JSON in octets

JSON comes in UTF-8, or in units of two or four octets with the greater or the lesser octet in
front. Because it starts with two characters of ASCII, the zeros among its first octets tell which;
where they tell nothing it is UTF-8, which may start with a byte order mark.
-/

namespace StoryPlayer.Wire

/-- How octets are laid out in units. -/
inductive Layout
  | utf8
  | double (bigEndian : Bool)
  | quadruple (bigEndian : Bool)
deriving Repr, DecidableEq

namespace Layout

/-- The layout that the zeros among the first octets tell. -/
def ofOctets : List UInt8 → Layout
  | a :: b :: c :: d :: _ =>
    if a = 0 then if b = 0 then quadruple true else double true
    else if b = 0 then if c = 0 ∧ d = 0 then quadruple false else double false
    else utf8
  | [a, b] => if a = 0 then double true else if b = 0 then double false else utf8
  | _ => utf8

/-- The codes of units of two octets, unless an octet is left over. -/
def doubles? (bigEndian : Bool) : List UInt8 → Option (List Nat)
  | [] => some []
  | [_] => none
  | a :: b :: rest =>
    let (high, low) := if bigEndian then (a, b) else (b, a)
    (doubles? bigEndian rest).map ((high.toNat * 0x100 + low.toNat) :: ·)

/-- The characters of codes of sixteen bits. Two halves of a pair that meet spell one character. -/
def ofDoubles : List Nat → Text
  | a :: b :: rest =>
    if Text.isHighHalf a && Text.isLowHalf b then Text.ofPair a b :: ofDoubles rest
    else Text.ofCode a :: ofDoubles (b :: rest)
  | [a] => [Text.ofCode a]
  | [] => []

/-- The characters of units of four octets, unless octets are left over or a code is none. -/
def ofQuadruples? (bigEndian : Bool) : List UInt8 → Option Text
  | [] => some []
  | a :: b :: c :: d :: rest =>
    let unit := if bigEndian then [a, b, c, d] else [d, c, b, a]
    let code := unit.foldl (fun n octet => n * 0x100 + octet.toNat) 0
    if code < 0x110000 then (ofQuadruples? bigEndian rest).map (Text.ofCode code :: ·) else none
  | _ => none

/-- The characters of octets in UTF-8, unless they are none. -/
def ofUtf8? (octets : List UInt8) : Option Text :=
  let (t, sequence) := Wire.decode .utf8 none octets
  if sequence = none ∧ encode t = octets then some t else none

/-- The characters of octets in a layout. -/
def text? (octets : List UInt8) : Layout → Option Text
  | utf8 => ofUtf8? octets
  | double bigEndian => (doubles? bigEndian octets).map ofDoubles
  | quadruple bigEndian => ofQuadruples? bigEndian octets

end Layout

/-- The text of JSON that comes in octets, without a byte order mark. -/
def jsonText? : List UInt8 → Option Text
  | 0xEF :: 0xBB :: 0xBF :: rest => Layout.ofUtf8? rest
  | octets => (Layout.ofOctets octets).text? octets

end StoryPlayer.Wire
