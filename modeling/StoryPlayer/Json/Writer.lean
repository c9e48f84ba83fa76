import StoryPlayer.Json.Value
import StoryPlayer.Decimal.Notation
import StoryPlayer.Text.Surrogate

/-!
# Writing JSON

Texts escape the quote, the backslash, the control characters and the halves of surrogate pairs and
nothing else, so that other characters stand for themselves. A floating-point number that is not
finite is written as `null`.

`Value.write` puts everything on one line; `Value.writeIndented` gives every item and every field a
line of its own, two spaces deeper than what holds it, and writes an empty list or object without a
break.
-/

namespace StoryPlayer.Json

/-- The written form of one character of a text. -/
def escape (c : Char) : Text :=
  match c with
  | '"' => ['\\', '"']
  | '\\' => ['\\', '\\']
  | '\x08' => ['\\', 'b']
  | '\x0c' => ['\\', 'f']
  | '\n' => ['\\', 'n']
  | '\r' => ['\\', 'r']
  | '\t' => ['\\', 't']
  | c =>
    if c.toNat < 0x20 || Text.isHalf c then '\\' :: 'u' :: Text.hex 4 (Text.codeOf c) else [c]

/-- A text between its quotes. -/
def writeText (t : Text) : Text :=
  '"' :: t.flatMap escape ++ ['"']

/-- A floating-point number as it is stored, or `null` when it is not finite. -/
def writeFloat (x : Float) : Text :=
  if x.isFinite then Decimal.writeIn .stored x else ['n', 'u', 'l', 'l']

/-- A value that holds no other one. -/
def writeScalar : Value → Text
  | .null => ['n', 'u', 'l', 'l']
  | .bool true => ['t', 'r', 'u', 'e']
  | .bool false => ['f', 'a', 'l', 's', 'e']
  | .int n => Text.ofInt n
  | .float x => writeFloat x
  | .text t => writeText t
  | .list _ => ['[', ']']
  | .object _ => ['\x7b', '\x7d']

mutual

/-- A value on one line, in front of `rest`. -/
def Value.onto (rest : Text) : Value → Text
  | .list [] => '[' :: ']' :: rest
  | .list (v :: vs) => '[' :: v.onto (itemsOnto (']' :: rest) vs)
  | .object [] => '\x7b' :: '\x7d' :: rest
  | .object ((n, v) :: fs) =>
    '\x7b' :: writeText n ++ ':' :: v.onto (fieldsOnto ('\x7d' :: rest) fs)
  | v => writeScalar v ++ rest

/-- The items behind the first, each behind its comma. -/
def itemsOnto (rest : Text) : List Value → Text
  | [] => rest
  | v :: vs => ',' :: v.onto (itemsOnto rest vs)

/-- The fields behind the first, each behind its comma. -/
def fieldsOnto (rest : Text) : List (Text × Value) → Text
  | [] => rest
  | (n, v) :: fs => ',' :: writeText n ++ ':' :: v.onto (fieldsOnto rest fs)

end

/-- A value on one line. -/
def Value.write (v : Value) : Text :=
  v.onto []

/-- A line break and the indentation of that depth. -/
def lineBreak (depth : Nat) : Text :=
  '\n' :: List.replicate (2 * depth) ' '

mutual

/-- A value at an indentation, in front of `rest`. -/
def Value.indentedOnto (depth : Nat) (rest : Text) : Value → Text
  | .list [] => '[' :: ']' :: rest
  | .list (v :: vs) =>
    '[' :: lineBreak (depth + 1) ++
      v.indentedOnto (depth + 1) (indentedItemsOnto depth rest vs)
  | .object [] => '\x7b' :: '\x7d' :: rest
  | .object ((n, v) :: fs) =>
    '\x7b' :: lineBreak (depth + 1) ++ writeText n ++ ':' :: ' ' ::
      v.indentedOnto (depth + 1) (indentedFieldsOnto depth rest fs)
  | v => writeScalar v ++ rest

/-- The items behind the first and the closing bracket. -/
def indentedItemsOnto (depth : Nat) (rest : Text) : List Value → Text
  | [] => lineBreak depth ++ ']' :: rest
  | v :: vs =>
    ',' :: lineBreak (depth + 1) ++ v.indentedOnto (depth + 1) (indentedItemsOnto depth rest vs)

/-- The fields behind the first and the closing brace. -/
def indentedFieldsOnto (depth : Nat) (rest : Text) : List (Text × Value) → Text
  | [] => lineBreak depth ++ '\x7d' :: rest
  | (n, v) :: fs =>
    ',' :: lineBreak (depth + 1) ++ writeText n ++ ':' :: ' ' ::
      v.indentedOnto (depth + 1) (indentedFieldsOnto depth rest fs)

end

/-- A value with a line for every item and field. -/
def Value.writeIndented (v : Value) : Text :=
  v.indentedOnto 0 []

end StoryPlayer.Json
