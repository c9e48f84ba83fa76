import StoryPlayer.Text.Basic

/-!
# JSON values

A value keeps integers and floating-point numbers apart, as the writer of the text did, and an
object keeps its fields in the order in which their names first came.
-/

namespace StoryPlayer.Json

inductive Value
  | null
  | bool (b : Bool)
  | int (n : Int)
  | float (x : Float)
  | text (t : Text)
  | list (items : List Value)
  | object (fields : List (Text × Value))
deriving Inhabited

/-- Puts a field into an object: a name that is there keeps its place and takes the new value. -/
def assign (name : Text) (v : Value) : List (Text × Value) → List (Text × Value)
  | [] => [(name, v)]
  | (n, w) :: rest => if n = name then (name, v) :: rest else (n, w) :: assign name v rest

/-- The value of the field of that name. -/
def lookup (name : Text) : List (Text × Value) → Option Value
  | [] => none
  | (n, v) :: rest => if n = name then some v else lookup name rest

theorem lookup_assign_self (name : Text) (v : Value) (fields : List (Text × Value)) :
    lookup name (assign name v fields) = some v := by
  induction fields with
  | nil => simp [assign, lookup]
  | cons field rest ih =>
    obtain ⟨n, w⟩ := field
    by_cases h : n = name <;> simp [assign, lookup, h, ih]

theorem lookup_assign_of_ne {name other : Text} (h : other ≠ name) (v : Value)
    (fields : List (Text × Value)) :
    lookup other (assign name v fields) = lookup other fields := by
  induction fields with
  | nil => simp [assign, lookup, h.symm]
  | cons field rest ih =>
    obtain ⟨n, w⟩ := field
    by_cases hn : n = name
    · subst hn
      simp [assign, lookup, h.symm]
    · simp [assign, lookup, hn, ih]

/-- The field of that name, when the value is an object that has one. -/
def Value.field? (name : Text) : Value → Option Value
  | .object fields => lookup name fields
  | _ => none

end StoryPlayer.Json
