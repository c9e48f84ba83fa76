import StoryPlayer.Stream.Ingestor

/-!
# Sessions

A session is a player with everything that may be under way around it: calls that wait for a render
or for a record, tasks that are ready to run, and alarms set on a clock that moves only when it is
told to. All of it is data, so a session can be stopped and looked at between any two turns.

Ready tasks run in the order in which they became ready, and a task runs until it has to wait.
-/

namespace StoryPlayer

/-- What can be asked of a session. -/
inductive Action
  | load (text : Text) (append : Bool)
  | start
  | advance
  | retreat
  | skip
  | resume
  /-- An input of the reader; one that is not known does nothing. -/
  | input (i : Option Player.Input)
  | finish
  | streaming (on : Bool)
  | toggleAuto
  | textSpeed (n : Int)
  | autoSpeed (n : Int)
  | moveTo (i : Int)
  /-- Whether later renders wait until they are released. -/
  | gate (on : Bool)
  /-- Lets the waiting render at this position, counted from the oldest, go on. -/
  | release (i : Nat)
  /-- Puts a new ingestor in place of the old one. -/
  | ingest (timeout : Seconds) (offers : Bool)
  | handle (r : StreamRecord)
  | consume (s : Source)
  /-- Fails before anything is done. -/
  | refuse (f : Failure)
  /-- Does one after another without letting any other task in between. -/
  | batch (actions : List Action)

/-- What a call gives. -/
inductive Result
  | nothing
  | truth (b : Bool)
  | commands (cs : List Command)
  | choices (cs : List Text)
  | all (rs : List Result)
  | failed (f : Failure)

/-- An ingestor at work: the time that its streams have, and whether it offers choices. -/
structure Intake where
  ingestor : Ingestor
  timeout : Seconds
  offers : Bool

/-- Someone who reads a source for an ingestor, from a time on and for at most so long. -/
structure Reader where
  intake : Nat
  start : Int
  timeout : Seconds
  source : Source

/-- What a call has still to do with the result of what it waits for. -/
inductive Remainder
  | offer (intake : Nat) (final : Text)
  | fail (f : Failure)
  | batch (actions : List Action) (results : List Result)
  | consume (r : Reader)

/-- A call under way: the step that made it, unless a timer did, and what remains to be done. -/
structure Call where
  step : Option Nat
  remainder : List Remainder

/-- A render that waits to be released, and the call that waits for it. -/
structure Held where
  ticket : Ticket
  call : Call

/-- A reader that waits for the next record, and the call that reads. -/
structure Waiter where
  id : Nat
  reader : Reader
  call : Call

/-- What happens at a time. -/
inductive Event
  | timer (serial : Nat)
  /-- A pause of a source is over, and so many others are left before its reader has something. -/
  | arrival (id : Nat) (pauses : List Int)
  | deadline (id : Nat)
deriving Repr, DecidableEq

/-- A task that is ready to run. -/
inductive Task
  /-- A timer was armed and begins to wait. -/
  | pace (serial : Nat)
  /-- A render was released. -/
  | resume (h : Held)
  /-- A reader asks for the next record. -/
  | fetch (id : Nat)
  /-- A record is there and reaches its reader after so many more turns. -/
  | deliver (id turns : Nat)
  /-- A pause that takes no time is over. -/
  | happen (e : Event)

/-- An event and the microsecond at which it is due. -/
structure Alarm where
  due : Int
  event : Event
deriving Repr, DecidableEq

/-- What runs now. -/
inductive Control
  | idle
  | perform (a : Action) (c : Call)
  | answer (r : Result) (c : Call)
  | read (r : Reader) (c : Call)

structure Session where
  clock : Int
  player : Player
  intakes : Array Intake
  gated : Bool
  held : List Held
  waiters : List Waiter
  queue : List Task
  alarms : List Alarm
  control : Control
  /-- The serial number from which on timers have not begun to wait. -/
  paced : Nat
  /-- The name of the next waiter. -/
  nextId : Nat
  /-- Calls that have finished, with the steps that made them. -/
  finished : Array (Nat × Result)
  /-- Choices that were offered. -/
  offered : Array (List Text)

namespace Session

/-- A session of a player in which nothing is under way. -/
def new (p : Player) (gated : Bool) : Session where
  clock := 0
  player := p
  intakes := #[]
  gated := gated
  held := []
  waiters := []
  queue := []
  alarms := []
  control := .idle
  paced := 0
  nextId := 0
  finished := #[]
  offered := #[]

instance : Nonempty Session :=
  ⟨.new (.new .default) false⟩

/-- The ingestor in place, if there is one. -/
def intake? (s : Session) : Option Intake :=
  s.intakes.back?

/-- Puts an ingestor in place. -/
def addIntake (s : Session) (timeout : Seconds) (offers : Bool) : Session :=
  { s with intakes := s.intakes.push ⟨.new, timeout, offers⟩ }

/-- Changes what an ingestor knows. -/
def setIngestor (s : Session) (i : Nat) (g : Ingestor) : Session :=
  { s with intakes := s.intakes.modify i fun k => { k with ingestor := g } }

/-- Makes a task ready. -/
def enqueue (s : Session) (t : Task) : Session :=
  { s with queue := s.queue ++ [t] }

/-- Sets an alarm, for now if it is due already. -/
def setAlarm (s : Session) (due : Int) (e : Event) : Session :=
  { s with alarms := s.alarms ++ [⟨max s.clock due, e⟩] }

/-- Lets an event happen after a pause. A pause that is not positive takes no time, but lets the
tasks that are ready go first. -/
def pause (s : Session) (micros : Int) (e : Event) : Session :=
  if micros ≤ 0 then s.enqueue (.happen e) else s.setAlarm (s.clock + micros) e

/-- Whether an alarm still means anything: its timer is armed, or its reader waits. -/
def isLive (s : Session) (a : Alarm) : Bool :=
  match a.event with
  | .timer serial =>
    match s.player.timer with
    | some t => t.serial == serial
    | none => false
  | .arrival id _ | .deadline id => s.waiters.any fun w => w.id == id

/-- Takes note of a timer that was armed since the last time. -/
def notice (s : Session) : Session :=
  match s.player.timer with
  | some t =>
    if s.paced ≤ t.serial then
      { s with paced := t.serial + 1 }.enqueue (.pace t.serial)
    else s
  | none => s

/-- The session without what was logged. -/
def cleared (s : Session) : Session :=
  { s with finished := #[], offered := #[], player := { s.player with cues := #[] } }

end Session

end StoryPlayer
