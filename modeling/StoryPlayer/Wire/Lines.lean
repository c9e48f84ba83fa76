import StoryPlayer.Text.Basic

/-!
# Cutting lines

The lines of a body end at any line break of Unicode. A carriage return ends its line only once it
is known whether a line feed follows, because the two are one break; until then the line is held
back.
-/

namespace StoryPlayer.Wire

/-- Whether a character other than the carriage return ends a line. -/
def isBreak (c : Char) : Bool :=
  c = '\n' || c = '\x0b' || c = '\x0c' || c = '\x1c' || c = '\x1d' || c = '\x1e' ||
    c = '\x85' || c = '\u2028' || c = '\u2029'

/-- The start of a line whose end has not come, its last character first, and whether a carriage
return follows it. -/
structure OpenLine where
  reversed : Text
  returned : Bool
deriving Repr, DecidableEq

/-- No line is open. -/
def OpenLine.none : OpenLine :=
  ⟨[], false⟩

/-- The characters of an open line in their order. -/
def OpenLine.text (l : OpenLine) : Text :=
  l.reversed.reverse

/-- What one more character does to a line behind which no carriage return waits. -/
def extend (reversed : Text) (c : Char) : List Text × OpenLine :=
  if c = '\r' then ([], ⟨reversed, true⟩)
  else if isBreak c then ([reversed.reverse], .none)
  else ([], ⟨c :: reversed, false⟩)

/-- The lines that one more character ends, and the line that is open behind it. -/
def cutStep (l : OpenLine) (c : Char) : List Text × OpenLine :=
  if l.returned then
    if c = '\n' then ([l.text], .none)
    else
      let (ended, l') := extend [] c
      (l.text :: ended, l')
  else extend l.reversed c

/-- The lines that more characters end, and the line that is open behind them. -/
def cut (l : OpenLine) : Text → List Text × OpenLine
  | [] => ([], l)
  | c :: rest =>
    let (ended, l) := cutStep l c
    let (more, l) := cut l rest
    (ended ++ more, l)

/-- The last line, when the characters end without a break behind it. -/
def cutEnd (l : OpenLine) : List Text :=
  if l.reversed = [] ∧ l.returned = false then [] else [l.text]

theorem cut_append (l : OpenLine) (a b : Text) :
    cut l (a ++ b) = ((cut l a).1 ++ (cut (cut l a).2 b).1, (cut (cut l a).2 b).2) := by
  induction a generalizing l with
  | nil => simp [cut]
  | cons c rest ih => simp [cut, ih, List.append_assoc]

end StoryPlayer.Wire
