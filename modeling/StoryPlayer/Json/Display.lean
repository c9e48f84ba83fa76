import StoryPlayer.Json.Value
import StoryPlayer.Decimal.Notation
import StoryPlayer.Text.Quoted

/-!
# Showing a value as text

A record may carry any JSON value where a text is expected. A text is then shown as it is; anything
else is shown in a notation of its own, in which names are capitalised and the texts inside a list
or an object stand between quotes.
-/

namespace StoryPlayer.Json

/-- A value that is no list or object, as it stands inside one. -/
def displayScalar : Value → Text
  | .null => ['N', 'o', 'n', 'e']
  | .bool true => ['T', 'r', 'u', 'e']
  | .bool false => ['F', 'a', 'l', 's', 'e']
  | .int n => Text.ofInt n
  | .float x => Decimal.write x
  | .text t => Text.quoted t
  | .list _ => ['[', ']']
  | .object _ => ['\x7b', '\x7d']

mutual

/-- A value inside a list or an object, in front of `rest`. -/
def Value.displayOnto (rest : Text) : Value → Text
  | .list [] => '[' :: ']' :: rest
  | .list (v :: vs) => '[' :: v.displayOnto (displayItemsOnto (']' :: rest) vs)
  | .object [] => '\x7b' :: '\x7d' :: rest
  | .object ((n, v) :: fs) =>
    '\x7b' :: Text.quoted n ++ ':' :: ' ' :: v.displayOnto (displayFieldsOnto ('\x7d' :: rest) fs)
  | v => displayScalar v ++ rest

/-- The items behind the first. -/
def displayItemsOnto (rest : Text) : List Value → Text
  | [] => rest
  | v :: vs => ',' :: ' ' :: v.displayOnto (displayItemsOnto rest vs)

/-- The fields behind the first. -/
def displayFieldsOnto (rest : Text) : List (Text × Value) → Text
  | [] => rest
  | (n, v) :: fs =>
    ',' :: ' ' :: Text.quoted n ++ ':' :: ' ' :: v.displayOnto (displayFieldsOnto rest fs)

end

/-- The text that a value is shown as. -/
def Value.display : Value → Text
  | .text t => t
  | v => v.displayOnto []

end StoryPlayer.Json
