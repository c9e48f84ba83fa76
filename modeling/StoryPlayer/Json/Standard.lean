import StoryPlayer.Json.Value
import StoryPlayer.Text.Surrogate

/-!
# Standard JSON

Not every value can be written as standard JSON: a number must be finite, and a text must be one
that can be encoded.
-/

namespace StoryPlayer.Json

mutual

/-- Whether all numbers in a value are finite. -/
def Value.isFinite : Value → Bool
  | .float x => x.isFinite
  | .list vs => areFinite vs
  | .object fs => fieldsFinite fs
  | _ => true

/-- Whether all numbers in the items of a list are finite. -/
def areFinite : List Value → Bool
  | [] => true
  | v :: vs => v.isFinite && areFinite vs

/-- Whether all numbers in the fields of an object are finite. -/
def fieldsFinite : List (Text × Value) → Bool
  | [] => true
  | (_, v) :: fs => v.isFinite && fieldsFinite fs

end

mutual

/-- Whether all texts in a value can be encoded. -/
def Value.isWhole : Value → Bool
  | .text t => Text.isWhole t
  | .list vs => areWhole vs
  | .object fs => fieldsWhole fs
  | _ => true

/-- Whether all texts in the items of a list can be encoded. -/
def areWhole : List Value → Bool
  | [] => true
  | v :: vs => v.isWhole && areWhole vs

/-- Whether all names and texts in the fields of an object can be encoded. -/
def fieldsWhole : List (Text × Value) → Bool
  | [] => true
  | (n, v) :: fs => Text.isWhole n && v.isWhole && fieldsWhole fs

end

/-- Whether a value can be written as standard JSON. -/
def Value.isStandard (v : Value) : Bool :=
  v.isFinite && v.isWhole

end StoryPlayer.Json
