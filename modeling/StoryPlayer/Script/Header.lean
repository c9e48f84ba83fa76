import StoryPlayer.Script.Line

/-!
# Scene headers

A script that arrives in pieces can be started once its header is there: a line that names a
location, one that lists the cast and one that lists choices, each with a payload. A line counts
once its line feed has arrived.
-/

namespace StoryPlayer

/-- The three directives of a header. -/
inductive Directive
  | location
  | cast
  | choices
deriving Repr, DecidableEq

/-- The directive that a line gives with a payload that is not blank. -/
def Line.directive? : Line → Option Directive
  | .location payload => if Text.trim payload = [] then none else some .location
  | .cast payload => if Text.trim payload = [] then none else some .cast
  | .choices payload => if Text.trim payload = [] then none else some .choices
  | _ => none

/-- The directives given by the complete lines of a text. -/
def headerDirectives (t : Text) : List Directive :=
  (Text.lines t).dropLast.filterMap fun l => (Line.ofText l).directive?

/-- Whether the complete lines of a text hold a header. -/
def hasHeader (t : Text) : Bool :=
  let found := headerDirectives t
  decide (.location ∈ found) && decide (.cast ∈ found) && decide (.choices ∈ found)

end StoryPlayer
