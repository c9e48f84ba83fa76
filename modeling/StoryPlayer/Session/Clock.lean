import StoryPlayer.Session.Turn

/-!
# The clock of a session

The clock moves to the alarms in the order in which they are due, and the session settles after each
of them. Alarms that mean nothing any more do not move it.
-/

namespace StoryPlayer.Session

/-- The earliest of the alarms; of two that are due together the one that was set first. -/
def earliest : List Alarm → Option Alarm
  | [] => none
  | a :: rest =>
    match earliest rest with
    | some b => if b.due < a.due then some b else some a
    | none => some a

/-- The session after its next alarm, unless there is none or `goesOn` does not hold of it. -/
def afterAlarm? (goesOn : Session → Alarm → Bool) (s : Session) : Option Session :=
  let live := s.alarms.filter s.isLive
  match earliest live with
  | none => none
  | some a =>
    if goesOn s a then some ({ s with alarms := live.erase a }.ring a).settle else none

/-- Lets the alarms go off, as long as `goesOn` holds of the session and its next alarm. -/
def ringWhile (goesOn : Session → Alarm → Bool) : Session → Session :=
  exhaust (afterAlarm? goesOn)

/-- Makes a call for a step and settles. -/
def call (s : Session) (step : Nat) (a : Action) : Session :=
  { s with control := .perform a ⟨some step, []⟩ }.settle

/-- Moves the clock on by so many microseconds. -/
def tick (s : Session) (micros : Int) : Session :=
  let limit := s.clock + micros
  let s := ringWhile (fun _ a => a.due ≤ limit) s
  { s with clock := max s.clock limit }

/-- Moves the clock to the last of the alarms. -/
def run (s : Session) : Session :=
  ringWhile (fun _ _ => true) s

/-- Moves the clock on until a call finishes, or to the last of the alarms. -/
def runToAnswer (s : Session) : Session :=
  ringWhile (fun s _ => s.finished.isEmpty) s

end StoryPlayer.Session
