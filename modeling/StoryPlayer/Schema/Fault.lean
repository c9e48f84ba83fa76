import StoryPlayer.Text.Basic

/-!
# Faults of a record

A record that comes as JSON is checked field by field, and every field at fault is reported, in the
order of the fields, with the path that leads to it.
-/

namespace StoryPlayer.Schema

/-- What is wrong with a value. -/
inductive Fault
  | missing
  | text
  | unicodeText
  | integer
  | integerText
  | integerFraction
  | integerSize
  | notFinite
  | truth
  | truthText
  | number
  | numberText
  | list
  | tuple
  | record
  | tagged
  | map
  | tagMissing
  | tagUnknown
  | choice
deriving Repr, DecidableEq

/-- The short name of a fault. -/
def Fault.code : Fault → String
  | missing => "missing"
  | text => "string_type"
  | unicodeText => "string_unicode"
  | integer => "int_type"
  | integerText => "int_parsing"
  | integerFraction => "int_from_float"
  | integerSize => "int_parsing_size"
  | notFinite => "finite_number"
  | truth => "bool_type"
  | truthText => "bool_parsing"
  | number => "float_type"
  | numberText => "float_parsing"
  | list => "list_type"
  | tuple => "tuple_type"
  | record => "model_type"
  | tagged => "model_attributes_type"
  | map => "dict_type"
  | tagMissing => "union_tag_not_found"
  | tagUnknown => "union_tag_invalid"
  | choice => "literal_error"

/-- The wording of a fault, where a reader of the service sees one. -/
def Fault.message : Fault → String
  | missing => "Field required"
  | text => "Input should be a valid string"
  | unicodeText => "Input should be a valid string, unable to parse raw data as a unicode string"
  | integer => "Input should be a valid integer"
  | integerText => "Input should be a valid integer, unable to parse string as an integer"
  | integerFraction => "Input should be a valid integer, got a number with a fractional part"
  | integerSize => "Unable to parse input string as an integer, exceeded maximum size"
  | notFinite => "Input should be a finite number"
  | truth => "Input should be a valid boolean"
  | truthText => "Input should be a valid boolean, unable to interpret input"
  | number => "Input should be a valid number"
  | numberText => "Input should be a valid number, unable to parse string as a number"
  | list => "Input should be a valid list"
  | tuple => "Input should be a valid tuple"
  | record => "Input should be a valid dictionary"
  | tagged => "Input should be a valid dictionary or object to extract fields from"
  | map => "Input should be a valid dictionary"
  | tagMissing => "Unable to extract tag using discriminator"
  | tagUnknown => "Input tag found using discriminator does not match any of the expected tags"
  | choice => "Input should be one of the expected values"

/-- A fault and the path of names and positions that leads to it. -/
structure Complaint where
  path : List Text
  fault : Fault
deriving Repr, DecidableEq

/-- The path with points between its parts, a colon and the name of the fault. -/
def Complaint.describe (c : Complaint) : Text :=
  Text.join ['.'] c.path ++ ':' :: c.fault.code.toList

/-- All complaints about a record, in order. -/
def describe (cs : List Complaint) : Text :=
  Text.join [';', ' '] (cs.map Complaint.describe)

/-- A value that passed its check, or every complaint about it. -/
abbrev Checked (α : Type) := Except (List Complaint) α

namespace Checked

/-- A complaint about the value itself. -/
def fail {α : Type} (f : Fault) : Checked α :=
  .error [⟨[], f⟩]

/-- The result of a check one step further down the path. -/
def under {α : Type} (part : Text) : Checked α → Checked α
  | .ok a => .ok a
  | .error cs => .error (cs.map fun c => { c with path := part :: c.path })

/-- Two checks: both values, or the complaints of both in order. -/
def both {α β γ : Type} (f : α → β → γ) : Checked α → Checked β → Checked γ
  | .ok a, .ok b => .ok (f a b)
  | .ok _, .error e => .error e
  | .error e, .ok _ => .error e
  | .error e, .error e' => .error (e ++ e')

/-- Applies a checked function to a checked value and keeps the complaints of both. -/
def apply {α β : Type} (f : Checked (α → β)) (a : Checked α) : Checked β :=
  both (fun f a => f a) f a

end Checked

end StoryPlayer.Schema
