import StoryPlayer.Script.Command
import StoryPlayer.Decimal.Basic

/-!
# The store of commands

The store holds the commands of a story and a cursor on one of them. Commands are only ever added at
the end or replaced as a whole, so a command keeps its position while the story grows.
-/

namespace StoryPlayer

/-- The commands of a story and the position of the current one. -/
structure Store where
  commands : List Command
  cursor : Nat
deriving Repr, DecidableEq

namespace Store

/-- A store of commands with the cursor on the first. -/
def ofList (cs : List Command) : Store :=
  ⟨cs, 0⟩

/-- A store without commands. -/
def empty : Store :=
  ofList []

def size (s : Store) : Nat :=
  s.commands.length

/-- Adds commands at the end; the cursor stays. -/
def append (s : Store) (cs : List Command) : Store :=
  { s with commands := s.commands ++ cs }

/-- Moves the cursor to the first command. -/
def rewind (s : Store) : Store :=
  { s with cursor := 0 }

def current? (s : Store) : Option Command :=
  s.commands[s.cursor]?

/-- Whether a command follows the current one. -/
def hasNext (s : Store) : Bool :=
  s.cursor + 1 < s.size

/-- Whether a command precedes the current one. -/
def hasPrevious (s : Store) : Bool :=
  0 < s.cursor

/-- The store one command further, if there is one. -/
def advance? (s : Store) : Option Store :=
  if s.hasNext then some { s with cursor := s.cursor + 1 } else none

/-- The store one command back, if there is one. -/
def retreat? (s : Store) : Option Store :=
  if s.hasPrevious then some { s with cursor := s.cursor - 1 } else none

/-- The store with the cursor at a position, if a command is there. -/
def moveTo? (s : Store) (i : Int) : Option Store :=
  if 0 ≤ i ∧ i < s.size then some { s with cursor := i.toNat } else none

/-- Steps back over the cast commands that `s` stands on, while there is a command before. -/
def overCast (s : Store) : Nat → Store
  | 0 => s
  | fuel + 1 =>
    match s.current?, s.retreat? with
    | some c, some t => if c.isCast then t.overCast fuel else s
    | _, _ => s

/-- The store where going back lands: on the command before the cursor or, over any cast commands,
on one further before. -/
def back? (s : Store) : Option Store :=
  s.retreat?.map fun t => t.overCast t.cursor

/-- How far a story has come. -/
structure Progress where
  current : Nat
  total : Nat
  percentage : Nat
deriving Repr, DecidableEq

/-- The share of `total` that `current` is, in whole percent. Quotient, product and sum are each
rounded to binary64, and half a percent that survives this goes up. -/
def percentage (current total : Nat) : Nat :=
  let share := Float.ofNat current / Float.ofNat total * 100.0 + 0.5
  let q := Decimal.Quotient.ofFloat share
  q.num / q.den

/-- How far the cursor has come, counted from one; all zero for an empty store. -/
def progress (s : Store) : Progress :=
  if s.size = 0 then ⟨0, 0, 0⟩
  else ⟨s.cursor + 1, s.size, percentage (s.cursor + 1) s.size⟩

end Store

end StoryPlayer
