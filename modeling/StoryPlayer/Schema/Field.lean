import StoryPlayer.Schema.Numeral
import StoryPlayer.Text.Surrogate

/-!
# Values of fields

Numbers and truth values are taken in any form that leaves no doubt: a whole number may come as a
floating-point number without a fraction or as its digits, a truth value as one of a few words. A
text is never made out of anything else, and any text will do as one; as a number or a truth value
it must be one that can be encoded.
-/

namespace StoryPlayer.Schema

open Json

def asText : Value → Checked Text
  | .text t => .ok t
  | _ => .fail .text

def asOptionalText : Value → Checked (Option Text)
  | .null => .ok none
  | .text t => .ok (some t)
  | _ => .fail .text

/-! ## Whole numbers -/

/-- A value that is there, or else a fault. -/
def orFault {α : Type} (f : Fault) : Option α → Except Fault α
  | some a => .ok a
  | none => .error f

/-- What `read` makes of a text, which must be one that can be encoded. -/
def ofWhole {α : Type} (read : Text → Except Fault α) (t : Text) : Checked α :=
  if Text.isWhole t then
    match read t with
    | .ok a => .ok a
    | .error f => .fail f
  else .fail .unicodeText

/-- The bits of a finite floating-point number as a signed quotient in whole units, if it has no
fraction. -/
def wholePart? (x : Float) : Option Int :=
  let q := Decimal.Quotient.ofFloat x.abs
  if q.num % q.den = 0 then
    let n : Int := (q.num / q.den : Nat)
    some (if x.toBits.toNat < Nat.pow 2 63 then n else -n)
  else none

/-- The least whole number past a signed word of 64 bits. -/
def wordLimit : Int :=
  Nat.pow 2 63

def asInteger : Value → Checked Int
  | .int n => .ok n
  | .bool b => .ok (if b then 1 else 0)
  | .float x =>
    if x.isNaN || x.isInf then .fail .notFinite
    else
      match wholePart? x with
      | none => .fail .integerFraction
      | some n => if -wordLimit < n ∧ n < wordLimit then .ok n else .fail .integerSize
  | .text t => ofWhole integerOfText t
  | _ => .fail .integer

/-! ## Truth values -/

/-- The words for false and for true, in lower case. -/
def truthWords : List (String × Bool) :=
  [("0", false), ("off", false), ("f", false), ("false", false), ("n", false), ("no", false),
   ("1", true), ("on", true), ("t", true), ("true", true), ("y", true), ("yes", true)]

/-- The truth value that a word stands for, whatever the case of its letters. -/
def truthOfText? (t : Text) : Option Bool :=
  (truthWords.find? fun w => w.1.toList = t.map Char.toLower).map (·.2)

def asTruth : Value → Checked Bool
  | .bool b => .ok b
  | .int n =>
    if n = 0 then .ok false
    else if n = 1 then .ok true
    else if -wordLimit ≤ n ∧ n < wordLimit then .fail .truthText
    else .fail .truth
  | .float x => if x == 0.0 then .ok false else if x == 1.0 then .ok true else .fail .truth
  | .text t => ofWhole (fun t => orFault .truthText (truthOfText? t)) t
  | _ => .fail .truth

/-! ## Floating-point numbers -/

/-- A floating-point number. A whole number past its range is none. -/
def asNumber : Value → Checked Float
  | .float x => .ok x
  | .int n =>
    let x := signed (n < 0) ⟨n.natAbs, 0⟩
    if x.isInf then .fail .number else .ok x
  | .bool b => .ok (if b then 1.0 else 0.0)
  | .text t => ofWhole (fun t => orFault .numberText (numberOfText? t)) t
  | _ => .fail .number

/-! ## Lists -/

/-- Items from position `n` on, each checked by `f`. -/
def items {α : Type} (f : Value → Checked α) (n : Nat) : List Value → Checked (List α)
  | [] => .ok []
  | v :: vs => .both List.cons ((f v).under (Text.ofNat n)) (items f (n + 1) vs)

def asTexts : Value → Checked (List Text)
  | .list vs => items asText 0 vs
  | _ => .fail .list

/-- A tuple of items that `f` checks. -/
def asTuple {α : Type} (f : Value → Checked α) : Value → Checked (List α)
  | .list vs => items f 0 vs
  | _ => .fail .tuple

/-! ## Fields of a record -/

/-- A field that has to be there. -/
def field {α : Type} (name : String) (f : Value → Checked α) (v : Value) : Checked α :=
  match v.field? name.toList with
  | some w => (f w).under name.toList
  | none => Checked.under name.toList (.fail .missing)

/-- A field that has the value `default` when it is not there. -/
def fieldOr {α : Type} (name : String) (default : α) (f : Value → Checked α) (v : Value) :
    Checked α :=
  match v.field? name.toList with
  | some w => (f w).under name.toList
  | none => .ok default

end StoryPlayer.Schema
