import StoryPlayer.Json.Reader
import StoryPlayer.Schema.Fault

/-!
# Numbers in texts

A text stands for a whole number when it holds its digits, perhaps with zeros in front, with a point
and zeros behind, and with single underscores in between. It stands for a floating-point number when
it holds one in positional or scientific form, or one of the words for those that are not finite;
here underscores may stand between any two characters. White space around a number does not count,
except around a floating-point number with underscores.

The two readings share one rule for underscores, `joined?`.
-/

namespace StoryPlayer.Schema

open Json

/-- Whether a character counts as white space in front of or behind a number: the blanks other than
the information separators. -/
def isPadding (c : Char) : Bool :=
  Text.isBlank c && !('\x1c' ≤ c && c ≤ '\x1f')

/-- A text without the white space at its ends. -/
def unpadded (t : Text) : Text :=
  Text.dropEndWhile isPadding (t.dropWhile isPadding)

/-- Whether a number is negative by the sign in front of it, and what follows the sign. -/
def signOf : Text → Bool × Text
  | '-' :: rest => (true, rest)
  | '+' :: rest => (false, rest)
  | rest => (false, rest)

/-- A text without its underscores, when each of them stands alone between two other characters. -/
def joined? (t : Text) : Option Text :=
  let parts := Text.pieces '_' t
  if [] ∈ parts then none else some parts.flatten

/-! ## Whole numbers -/

/-- Whether a character is a digit other than zero. -/
def isLeading (c : Char) : Bool :=
  '1' ≤ c && c ≤ '9'

/-- The digits of a whole number from its first that is not zero. Underscores among the zeros in
front do not count, and a minus sign may stand behind them. Of zeros alone the last character is
left, of zeros in front of a point the last one and the point. -/
def unzeroed? : Text → Option Text
  | '0' :: rest =>
    let isZero := fun c : Char => c == '0' || c == '_'
    let last := (rest.takeWhile isZero).getLast?.getD '0'
    match rest.dropWhile isZero with
    | [] => some [last]
    | '.' :: fraction => some (last :: '.' :: fraction)
    | c :: more => if isLeading c || c == '-' then some (c :: more) else none
  | c :: rest => if isLeading c then some (c :: rest) else none
  | [] => none

/-- A number without the point and the zeros at its end. -/
def withoutFraction (t : Text) : Text :=
  match Text.behind? '.' t with
  | some (d :: ds) => if (d :: ds).all (· == '0') then Text.before '.' t else t
  | _ => t

/-- The number that a text of digits alone stands for. There must not be too many of them, nor a
zero in front of others. -/
def plainInteger (t : Text) : Except Fault Nat :=
  let digits := t.takeWhile isDigit
  if Limit.maxDigits < digits.length then .error .integerSize
  else if digits = [] ∨ digits ≠ t ∨ digits.head? = some '0' ∧ digits ≠ ['0'] then
    .error .integerText
  else .ok (Text.natOfDigits digits)

/-- The whole number that a text stands for. -/
def integerOfText (t : Text) : Except Fault Int :=
  let (negative, body) := signOf (unpadded t)
  match ((unzeroed? body).map withoutFraction).bind joined? with
  | none => .error .integerText
  | some ('-' :: digits) =>
    if negative then .error .integerText else (plainInteger digits).map fun n => -(n : Int)
  | some digits => (plainInteger digits).map fun n => if negative then -(n : Int) else n

/-! ## Floating-point numbers -/

/-- The number that is not finite which a word stands for, whatever the case of its letters. -/
def unboundedOfText? (negative : Bool) (t : Text) : Option Float :=
  let word := t.map Char.toLower
  if word = "inf".toList ∨ word = "infinity".toList then
    some (if negative then -1.0 / 0.0 else 1.0 / 0.0)
  else if word = "nan".toList then some (0.0 / 0.0)
  else none

/-- The exponent behind the mark of a number in scientific form. -/
def exponentOfText? (t : Text) : Option Int :=
  let (negative, digits) := signOf t
  if digits = [] ∨ !digits.all isDigit then none
  else
    let n : Int := Text.natOfDigits digits
    some (if negative then -n else n)

/-- The number that a text stands for as it is: digits with a point or an exponent or neither, or a
word. At least one digit must stand beside the point. -/
def plainNumber? (t : Text) : Option Float :=
  let (negative, body) := signOf t
  match unboundedOfText? negative body with
  | some x => some x
  | none =>
    let isMark := fun c : Char => c == 'e' || c == 'E'
    let mantissa := body.takeWhile fun c => !isMark c
    let exponent :=
      match body.dropWhile fun c => !isMark c with
      | [] => some 0
      | _ :: e => exponentOfText? e
    let fraction := (Text.behind? '.' mantissa).getD []
    let digits := Text.before '.' mantissa ++ fraction
    if digits = [] ∨ !digits.all isDigit then none
    else exponent.map fun e => signed negative ⟨Text.natOfDigits digits, e - fraction.length⟩

/-- The number that a text stands for: as it is between white space, or without its underscores. -/
def numberOfText? (t : Text) : Option Float :=
  plainNumber? (unpadded t) <|> (joined? t).bind plainNumber?

end StoryPlayer.Schema
