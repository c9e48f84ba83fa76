import StoryPlayer.Player.Basic

/-!
# The steps of the player

Every call and every firing of the timer is a function of the player's state. A call that has a
command rendered stops there and gives a ticket; `rendered` goes on from it when the render is done,
and drops it when the player has moved on in the meantime.

A location waits for input or is left by a timer, a cast command is left at once, and a text is
revealed. Past the last command the player waits for more while the story streams in, and otherwise
the story has ended. Nothing on display is cleared then.
-/

namespace StoryPlayer.Player

/-! ## Processing commands -/

/-- There is no command to go on to. -/
def exhaust (p : Player) : Player :=
  { p with phase := if p.streaming then .waitingForMore else .ended }

/-- Processes the command at the cursor in a session of its own. -/
def process (p : Player) : Waiting :=
  let p := { p.disarm with session := p.session + 1 }
  match p.store.current? with
  | none => (p.exhaust, none)
  | some c =>
    ({ p with current := some c, phase := .playing }.cue (.render c), some ⟨p.session, c⟩)

/-- Goes on to the next command. -/
def stepForward (p : Player) : Waiting :=
  match p.store.advance? with
  | some s => process { p with store := s }
  | none => (p.exhaust, none)

def startReveal (p : Player) (speaker text : Text) : Player :=
  ({ p with phase := .typing }.say speaker []).arm p.session (.reveal text)

/-- The text is there in full: waits for input, or arms the timer that goes on. -/
def finishReveal (p : Player) (session : Nat) : Player :=
  let p := { p with
    phase := .awaitingInput, display := { p.display with showContinue := true } }.notify
  if p.streaming then p.arm session (.goOn p.streamingAdvance)
  else if p.autoMode then p.arm session (.goOn p.autoSpeed)
  else p

/-- Goes on when a render is done. A render of an earlier session has no effect. -/
def rendered (p : Player) (t : Ticket) : Waiting :=
  if t.session ≠ p.session then (p, none)
  else
    match t.command with
    | .dialogue speaker text _ _ => (p.startReveal speaker text, none)
    | .action text _ => (p.startReveal narration text, none)
    | .cast _ => p.stepForward
    | .location .. =>
      let p := { p with phase := .awaitingInput }
      (if p.streaming || p.autoMode then p.arm t.session (.goOn p.locationAdvance) else p, none)

/-- Completes renders at once, one after another, for as long as a call waits for one. Every render
but the last moves the cursor, so as many as there are commands behind it suffice. -/
def complete : Nat → Waiting → Player
  | _, (p, none) => p
  | 0, (p, some _) => p
  | n + 1, (p, some t) => complete n (p.rendered t)

/-- The player after a call whose renders complete at once. -/
def settle (w : Waiting) : Player :=
  complete (w.1.store.size - w.1.store.cursor + 1) w

/-! ## Loading -/

/-- Loads a script in place of the old one, whose scene, position and choices are dropped. -/
def load (p : Player) (t : Text) : Player :=
  let r := readScript t Scene.empty
  let p := { p.disarm with
    session := p.session + 1, store := .ofList r.commands, choices := [], current := none,
    phase := .idle }
  { (p.cue .reset).say [] readyText with scene := r.scene, choices := r.offered }

/-- Adds a script that goes on where the last one stopped. Cursor and playback are not touched. -/
def append (p : Player) (t : Text) : Player :=
  let r := readScript t p.scene
  { p with
    store := p.store.append r.commands, scene := r.scene, choices := r.choices.getD p.choices }

/-! ## Navigation -/

/-- Plays from the first command, if there is one. -/
def start (p : Player) : Waiting :=
  if p.store.size = 0 then (p, none) else process { p with store := p.store.rewind }

/-- Shows the whole text that is being revealed. -/
def skip (p : Player) : Player :=
  if p.phase ≠ .typing then p
  else
    let p := p.disarm
    let text := ((p.current.bind Command.spoken?).getD p.display.text)
    finishReveal { p with display := { p.display with text := text } } p.session

/-- Goes on: a running reveal is completed, an idle player starts, and one that waits for more keeps
waiting. -/
def advance (p : Player) : Waiting :=
  match p.phase with
  | .typing => (p.skip, none)
  | .idle => p.start
  | .waitingForMore => (p, none)
  | _ => p.disarm.stepForward

/-- Goes back over any cast commands, which would only lead forward again. -/
def retreat (p : Player) : Waiting :=
  if p.phase = .typing then (p.skip, none)
  else
    match p.store.back? with
    | none => (p, none)
    | some s => process { p with store := s }

/-- Takes up commands that were added after the player ran out of them. -/
def resume (p : Player) : Waiting :=
  if p.phase ≠ .waitingForMore then (p, none)
  else
    match p.store.advance? with
    | some s => process { p with store := s }
    | none => (if p.streaming then p else { p with phase := .ended }, none)

/-- Ends playback by hand. -/
def finish (p : Player) : Player :=
  { p.disarm with phase := .ended }.say [] completedText

/-! ## Modes and speeds -/

/-- Says whether the story is still streaming in. -/
def setStreaming (p : Player) (on : Bool) : Player :=
  { p with streaming := on }

/-- Turns auto mode on or off. While the player waits for input this arms or disarms the timer. -/
def toggleAuto (p : Player) : Player :=
  let p := { p with autoMode := !p.autoMode }
  if p.phase ≠ .awaitingInput then p
  else if p.autoMode then p.arm p.session (.goOn p.autoSpeed)
  else if p.streaming then p
  else p.disarm

/-- Sets the milliseconds per character, within their range. -/
def setTextSpeed (p : Player) (n : Int) : Player :=
  { p with textSpeed := clampTextSpeed n }

/-- Sets the milliseconds before auto mode goes on, within their range. -/
def setAutoSpeed (p : Player) (n : Int) : Player :=
  { p with autoSpeed := clampAutoSpeed n }

/-- What a reader can do. -/
inductive Input
  | advance
  | back
  | skip
  | toggleAuto
deriving Repr, DecidableEq

/-- Answers an input. While the story streams in only auto mode can be turned. -/
def input (p : Player) (i : Input) : Waiting :=
  match i with
  | .toggleAuto => (p.toggleAuto, none)
  | .advance => if p.streaming then (p, none) else p.advance
  | .back => if p.streaming then (p, none) else p.retreat
  | .skip => if p.streaming then (p, none) else (p.skip, none)

/-! ## Tasks -/

/-- Reveals one more character, and completes the reveal behind the last. The task is let go before,
so that it is not cancelled by what is armed then. -/
def revealNext (p : Player) (t : Timer) : Text → Player
  | [] => p.letGo.finishReveal t.session
  | c :: rest =>
    let p := { p with display := { p.display with text := p.display.text ++ [c] } }.notify
    if rest = [] then p.letGo.finishReveal t.session
    else p.keep { t with job := .reveal rest }

/-- Runs a task that has waited. One that goes on does so only in its own session and while the
player waits for input. If it comes too late, it need not be held any more: it is over, so that to
cancel it would do nothing. -/
def runTask (p : Player) (t : Timer) : Waiting :=
  let p := p.drop t
  match t.job with
  | .reveal rest => (p.revealNext t rest, none)
  | .goOn _ =>
    if t.session = p.session ∧ p.phase = .awaitingInput then p.letGo.stepForward
    else (p.forget t, none)

/-- Fires the timer: runs the task that the player holds. -/
def fire (p : Player) : Waiting :=
  match p.timer with
  | none => (p, none)
  | some t => p.runTask t

end StoryPlayer.Player
