import StoryPlayer.Script.Reading
import StoryPlayer.Settings.Basic
import StoryPlayer.Store

/-!
# The state of the player

The player steps through the commands of its store. A command is rendered first; a text is then
revealed character by character, after which the player waits for input or, in auto mode or while
the story streams in, arms a timer that goes on by itself.

Whatever waits for some time is a task of its own, which lives until it has run or is cancelled. The
player holds on to the task that it started last, its timer, and cancels that before it starts
another. A timer belongs to the session in which it was armed. Every command that is processed opens
a new session, so what belonged to an earlier one is recognised as stale. It also has a serial
number of its own, by which whoever keeps the time tells an armed timer from one that was replaced.

The player reaches the outside only by cues, which it lists in order.
-/

namespace StoryPlayer

/-- What the player is doing. -/
inductive Phase
  | idle
  /-- The current command is being rendered. -/
  | playing
  /-- The text of the current command is being revealed. -/
  | typing
  | awaitingInput
  /-- The commands have run out and more are to come. -/
  | waitingForMore
  | ended
deriving Repr, DecidableEq

def Phase.name : Phase → String
  | idle => "idle"
  | playing => "playing"
  | typing => "typing"
  | awaitingInput => "awaiting_input"
  | waitingForMore => "waiting_for_more"
  | ended => "ended"

/-- The dialogue box. -/
structure Display where
  speaker : Text
  text : Text
  showContinue : Bool
deriving Repr, DecidableEq

/-- What the player tells the outside. -/
inductive Cue
  /-- The dialogue box has changed to this. -/
  | display (d : Display)
  /-- A command is to be rendered. -/
  | render (c : Command)
  /-- The stage is to be emptied. -/
  | reset
deriving Repr, DecidableEq

/-- What a timer does when it fires. -/
inductive Job
  /-- Reveals the next of the characters still hidden. -/
  | reveal (rest : Text)
  /-- Goes on to the next command after this many milliseconds. -/
  | goOn (delay : Int)
deriving Repr, DecidableEq

/-- A task that does its job when it has waited. -/
structure Timer where
  serial : Nat
  session : Nat
  job : Job
deriving Repr, DecidableEq

structure Player where
  streamingAdvance : Int
  locationAdvance : Int
  store : Store
  phase : Phase
  streaming : Bool
  autoMode : Bool
  textSpeed : Int
  autoSpeed : Int
  /-- The choices offered at the end of the turn. -/
  choices : List Text
  current : Option Command
  display : Display
  /-- The scene at the end of what has been read. -/
  scene : Scene
  /-- The task that the player holds and can cancel. -/
  timer : Option Timer
  /-- The tasks that are alive, whether they are held or not. -/
  tasks : List Timer
  session : Nat
  /-- The serial number of the next timer. -/
  serial : Nat
  cues : Array Cue
deriving Repr, DecidableEq

/-- A render that was asked for: its command and the session in which it was. -/
structure Ticket where
  session : Nat
  command : Command
deriving Repr, DecidableEq

/-- A player after a call, and the render that the call waits for, if it waits for one. -/
abbrev Waiting := Player × Option Ticket

/-- The text shown before any script is loaded. -/
def welcomeText : Text :=
  "Load a script to begin your visual novel experience...".toList

/-- The text shown when a script is loaded. -/
def readyText : Text :=
  "Click or press Space to begin...".toList

/-- The text shown when playback is ended by hand. -/
def completedText : Text :=
  "Story completed. Click to restart or load new script.".toList

/-- The label of a text that nobody speaks. -/
def narration : Text :=
  "Narration".toList

namespace Player

/-- A player with settings and without a script. -/
def new (s : Settings) : Player where
  streamingAdvance := s.streamingAdvance
  locationAdvance := s.locationAdvance
  store := .empty
  phase := .idle
  streaming := false
  autoMode := s.autoMode
  textSpeed := s.textSpeed
  autoSpeed := s.autoSpeed
  choices := []
  current := none
  display := ⟨[], welcomeText, false⟩
  scene := .empty
  timer := none
  tasks := []
  session := 0
  serial := 0
  cues := #[]

def cue (p : Player) (c : Cue) : Player :=
  { p with cues := p.cues.push c }

/-- Tells the outside what the dialogue box shows. -/
def notify (p : Player) : Player :=
  p.cue (.display p.display)

/-- Changes the dialogue box. -/
def say (p : Player) (speaker text : Text) : Player :=
  { p with display := ⟨speaker, text, false⟩ }.notify

/-- Whether a task is the one that the player holds. -/
def holds (p : Player) (t : Timer) : Bool :=
  p.timer.any fun u => u.serial == t.serial

/-- Cancels the task that the player holds, if it holds one. It will not run any more. -/
def disarm (p : Player) : Player :=
  { p with timer := none, tasks := p.tasks.filter fun t => !p.holds t }

/-- Starts a task for a session, in place of the one that the player holds. -/
def arm (p : Player) (session : Nat) (job : Job) : Player :=
  let t : Timer := ⟨p.serial, session, job⟩
  { p.disarm with timer := some t, tasks := p.disarm.tasks ++ [t], serial := p.serial + 1 }

/-- Lets go of the task that the player holds, without cancelling it. -/
def letGo (p : Player) : Player :=
  { p with timer := none }

/-- Lets go of a task if the player holds it. -/
def forget (p : Player) (t : Timer) : Player :=
  { p with timer := p.timer.filter fun u => u.serial != t.serial }

/-- A task is over. -/
def drop (p : Player) (t : Timer) : Player :=
  { p with tasks := p.tasks.filter fun u => u.serial != t.serial }

/-- A task goes on to wait, as what it has become. It stays held if it was. -/
def keep (p : Player) (t : Timer) : Player :=
  { p with
    timer := p.timer.map fun u => if u.serial = t.serial then t else u
    tasks := p.tasks ++ [t] }

/-- The milliseconds for which the armed timer waits before it fires next. A reveal of nothing does
not wait at all. -/
def delay? (p : Player) : Option Int :=
  p.timer.bind fun t =>
    match t.job with
    | .reveal [] => none
    | .reveal (_ :: _) => some p.textSpeed
    | .goOn delay => some delay

end Player

end StoryPlayer
