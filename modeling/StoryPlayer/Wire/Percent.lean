import StoryPlayer.Wire.Utf8

/-!
# Octets in addresses

An address is written in ASCII. Every other character, and every one with a meaning of its own where
it stands, is written as its octets, each as a percent sign and two hexadecimal digits. The percent
sign itself is left alone, so that what is written as octets already stays as it is.
-/

namespace StoryPlayer.Wire

/-- The characters that may stand for themselves anywhere in an address. -/
def isUnreserved (c : Char) : Bool :=
  c.isAlphanum || c = '-' || c = '.' || c = '_' || c = '~'

/-- An octet as a percent sign and two digits. -/
def escapeOctet (b : UInt8) : Text :=
  '%' :: (Text.hex 2 b.toNat).map Char.toUpper

/-- A text in which every character is written as octets that is neither safe nor unreserved. -/
def percentEncode (safe : Char → Bool) (t : Text) : Text :=
  t.flatMap fun c => if isUnreserved c || safe c then [c] else (encode [c]).flatMap escapeOctet

/-- The octets of a text in which some are written as a percent sign and two digits. -/
def percentOctets : Text → List UInt8
  | '%' :: a :: b :: rest =>
    match Text.hexDigit? a, Text.hexDigit? b with
    | some high, some low => (high * 16 + low).toUInt8 :: percentOctets rest
    | _, _ => encode ['%'] ++ percentOctets (a :: b :: rest)
  | c :: rest => encode [c] ++ percentOctets rest
  | [] => []

/-- A text with the characters that some of its octets spell. -/
def percentDecode (t : Text) : Text :=
  let (decoded, sequence) := decode .utf8 none (percentOctets t)
  decoded ++ decodeEnd sequence

end StoryPlayer.Wire
