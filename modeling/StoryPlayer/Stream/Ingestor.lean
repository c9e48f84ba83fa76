import StoryPlayer.Player.Step
import StoryPlayer.Script.Header
import StoryPlayer.Stream.Source

/-!
# Growing a story from a stream

An ingestor feeds a player from the records of one stream. Only complete lines are read, so a
directive whose payload has not come is never misread. Playback starts once, as soon as the complete
lines hold a header or a setup record has come, and there is a command to start with. From then on
complete lines are added as they come, and a player that has run out of commands is nudged. The done
record brings what the chunks did not, and the choices of the final text.

An ingestor never waits by itself. Where the player waits for a render, the handling of a record
stops, and `Afterwards` says what is left to do when the render is done.
-/

namespace StoryPlayer

/-- What was received of a stream, and how far it has come. -/
structure Ingestor where
  rawText : Text
  /-- The line that is not complete. -/
  lineBuffer : Text
  setupReady : Bool
  setupRequested : Bool
  finished : Bool
  choices : List Text
deriving Repr, DecidableEq

/-- What is left to do once the player has settled. -/
inductive Afterwards
  | nothing
  /-- The choices of this final text are to be offered. -/
  | offer (final : Text)
  | fail (f : Failure)

/-- What handling a record leads to: ingestor and player, the render that is waited for, and what is
left to do after it. -/
structure Handling where
  ingestor : Ingestor
  player : Player
  ticket : Option Ticket
  afterwards : Afterwards

namespace Ingestor

/-- An ingestor of which nothing is known. -/
def new : Ingestor :=
  ⟨[], [], false, false, false, []⟩

/-- Takes text: the ingestor behind it and the lines that it completed. -/
def buffer (g : Ingestor) (t : Text) : Ingestor × List Text :=
  let ls := Text.lines (g.lineBuffer ++ t)
  ({ g with rawText := g.rawText ++ t, lineBuffer := ls.getLastD [] }, ls.dropLast)

/-- The complete lines. -/
def completeText (g : Ingestor) : Text :=
  g.rawText.take (g.rawText.length - g.lineBuffer.length)

/-- The handling that leaves it at an ingestor and a player. -/
def leave (g : Ingestor) (w : Waiting) : Handling :=
  ⟨g, w.1, w.2, .nothing⟩

/-- Starts playback with the complete lines, unless they hold no command. -/
def start (g : Ingestor) (p : Player) : Handling :=
  let t := g.completeText
  if (readScript t Scene.empty).commands = [] then g.leave (p, none)
  else { g with setupReady := true }.leave ((p.setStreaming true).load t).start

/-- The stream has failed: playback goes on with what there is. -/
def abort (g : Ingestor) (p : Player) : Ingestor × Waiting :=
  ({ g with finished := true }, (p.setStreaming false).resume)

/-- Aborts the stream and then fails. -/
def failWith (g : Ingestor) (p : Player) (f : Failure) : Handling :=
  let (g, w) := g.abort p
  ⟨g, w.1, w.2, .fail f⟩

def onChunk (g : Ingestor) (p : Player) (t : Text) : Handling :=
  let (g, complete) := g.buffer t
  if g.setupReady = false then
    if g.setupRequested || hasHeader g.completeText then g.start p else g.leave (p, none)
  else if complete = [] then g.leave (p, none)
  else g.leave (p.append (Text.join ['\n'] complete)).resume

/-- Handles a setup record. Its text counts only when no other has come. -/
def onSetup (g : Ingestor) (p : Player) (t : Text) : Handling :=
  if g.setupReady then g.leave (p, none)
  else
    let g := if t ≠ [] ∧ g.rawText = [] then (g.buffer t).1 else g
    { g with setupRequested := true }.start p

/-- Handles a done record. A final text that goes on from what was received completes it. -/
def onDone (g : Ingestor) (p : Player) (final : Text) : Handling :=
  let g := { g with finished := true }
  let p := p.setStreaming false
  let (g, missing) :=
    match Text.after? g.rawText final with
    | some rest => if final = [] then (g, []) else g.buffer rest
    | none => (g, [])
  let offered := Afterwards.offer (if final = [] then g.rawText else final)
  if g.setupReady = false then
    let w := (p.load g.rawText).start
    ⟨{ g with setupReady := true, lineBuffer := [] }, w.1, w.2, offered⟩
  else
    let pending := Text.join ['\n'] (missing ++ [g.lineBuffer])
    let w := (if Text.trim pending = [] then p else p.append pending).resume
    ⟨{ g with lineBuffer := [] }, w.1, w.2, offered⟩

/-- Handles a record. After the stream has finished nothing is handled any more. -/
def handle (g : Ingestor) (p : Player) (r : StreamRecord) : Handling :=
  if g.finished then g.leave (p, none)
  else
    match r.kind with
    | .chunk => g.onChunk p r.text
    | .setupReady => g.onSetup p r.text
    | .done => g.onDone p r.text
    | .error => g.failWith p (.reported r.text)

/-- Settles the choices by those of the final text. -/
def offer (g : Ingestor) (final : Text) : Ingestor :=
  { g with choices := (readScript final Scene.empty).offered }

end Ingestor

end StoryPlayer
