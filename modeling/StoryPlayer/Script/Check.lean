import StoryPlayer.Script.Line
import StoryPlayer.Script.Record

/-!
# Checking a script

A script is checked line by line for directives that can be read but are probably mistakes. A
mistake that leaves a command without its subject is an error; what may be meant is a warning.
-/

namespace StoryPlayer

/-- What makes a script invalid. -/
inductive Mistake
  | emptyLocation
  | emptyCast
  | missingSpeaker
deriving Repr, DecidableEq

/-- What is noted about a script that may be as meant. -/
inductive Doubt
  | emptyChoices (line : Nat)
  | emptyDialogue (line : Nat)
  | noLocation
  | noCast
deriving Repr, DecidableEq

namespace Line

def mistake? : Line → Option Mistake
  | .location payload => if Text.trim payload = [] then some .emptyLocation else none
  | .cast payload => if castOf payload = [] then some .emptyCast else none
  | .dialogue speaker _ => if speaker = [] then some .missingSpeaker else none
  | _ => none

/-- The doubt about the line with number `n`. -/
def doubt? (n : Nat) : Line → Option Doubt
  | .choices payload => if choicesOf payload = [] then some (.emptyChoices n) else none
  | .dialogue _ text => if text = [] then some (.emptyDialogue n) else none
  | _ => none

/-- Whether the line names a location, an empty one included. -/
def isLocation : Line → Bool
  | .location _ => true
  | _ => false

/-- Whether the line lists the cast, an empty one included. -/
def isCast : Line → Bool
  | .cast _ => true
  | _ => false

end Line

/-- The result of checking a script: its mistakes with their line numbers, and its doubts. -/
structure Report where
  mistakes : List (Nat × Mistake)
  doubts : List Doubt
deriving Repr, DecidableEq

/-- Whether a script has no mistake. -/
def Report.valid (r : Report) : Bool :=
  r.mistakes.isEmpty

/-- The mistakes in lines numbered from `n`. -/
def mistakesFrom (n : Nat) : List Line → List (Nat × Mistake)
  | [] => []
  | l :: ls => (l.mistake?.map fun m => (n, m)).toList ++ mistakesFrom (n + 1) ls

/-- The doubts about lines numbered from `n`. -/
def doubtsFrom (n : Nat) : List Line → List Doubt
  | [] => []
  | l :: ls => (l.doubt? n).toList ++ doubtsFrom (n + 1) ls

/-- Checks a script text. Lines are numbered from one; what the whole script lacks comes last. -/
def checkScript (t : Text) : Report :=
  let ls := Line.all t
  ⟨mistakesFrom 1 ls,
    doubtsFrom 1 ls ++
      (if ls.any Line.isLocation then [] else [.noLocation]) ++
      (if ls.any Line.isCast then [] else [.noCast])⟩

def Mistake.message : Mistake → String
  | emptyLocation => "Empty location"
  | emptyCast => "Empty characters list"
  | missingSpeaker => "Missing speaker name"

/-- A remark about a numbered line. -/
def atLine (n : Nat) (remark : String) : Text :=
  "Line ".toList ++ Text.ofNat n ++ ": ".toList ++ remark.toList

def Doubt.message : Doubt → Text
  | emptyChoices n => atLine n "Empty story transition points"
  | emptyDialogue n => atLine n "Empty dialogue"
  | noLocation => "No locations defined in script".toList
  | noCast => "No characters defined in script".toList

/-- The errors of a report in words. -/
def Report.errors (r : Report) : List Text :=
  r.mistakes.map fun (n, m) => atLine n m.message

/-- The warnings of a report in words. -/
def Report.warnings (r : Report) : List Text :=
  r.doubts.map Doubt.message

def Report.toValue (r : Report) : Json.Value :=
  objectOf [("valid", .bool r.valid), ("errors", textsValue r.errors),
    ("warnings", textsValue r.warnings)]

end StoryPlayer
