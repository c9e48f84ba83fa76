import StoryPlayer.Json.Display
import StoryPlayer.Json.Reader
import StoryPlayer.Stream.Source

/-!
# Frames of an event stream

An event stream is made of lines. The lines of a frame that name the field `data` give its payload,
a blank line ends the frame, and comments and other fields mean nothing. A payload is a JSON object
that names the kind of a record; one that is not, is left out, so that a malformed frame never
affects another. Only a payload that runs into a limit of the reader ends the stream with its frame.
-/

namespace StoryPlayer.Frame

open Json

/-- The fields that may carry the text of a record, in the order in which they are tried. -/
def textFields : List Text :=
  ["content".toList, "text".toList, "error".toList, "message".toList]

/-- The record that the fields of a payload stand for. A hyphen in its kind counts as an
underscore. -/
def recordOfFields (fields : List (Text × Value)) : Option StreamRecord :=
  let kind := ((lookup "type".toList fields).getD (.text [])).display
  (RecordKind.ofName? (kind.map fun c => if c = '-' then '_' else c)).map fun k =>
    ⟨k, ((textFields.findSome? fun name => lookup name fields).getD (.text [])).display⟩

/-- What a frame comes to: a record, or the limit that its payload runs into. -/
abbrev Outcome := Except Limit StreamRecord

/-- What the payload of a frame comes to, if to anything. -/
def outcomeOfPayload (payload : Text) : Option Outcome :=
  match read payload with
  | .ok (.object fields) => (recordOfFields fields).map .ok
  | .error (.beyond limit) => some (.error limit)
  | _ => none

/-- What a frame with these data lines comes to, if there are any. -/
def close (data : List Text) : Option Outcome :=
  if data = [] then none else outcomeOfPayload (Text.join ['\n'] data)

/-- What a line without its break is in a frame. -/
inductive Part
  | data (value : Text)
  | other
  | blank
deriving Repr, DecidableEq

/-- A value without the one space that may stand in front of it. -/
def unspaced : Text → Text
  | ' ' :: rest => rest
  | rest => rest

/-- What a line is. Carriage returns at its end do not belong to it. -/
def partOf (line : Text) : Part :=
  match Text.dropEndWhile (· == '\r') line with
  | [] => .blank
  | ':' :: _ => .other
  | t =>
    if Text.before ':' t = "data".toList then .data (unspaced ((Text.behind? ':' t).getD []))
    else .other

/-- The data lines of the open frame after one more line, and what a frame comes to that the line
ends. -/
def step (data : List Text) (line : Text) : List Text × Option Outcome :=
  match partOf line with
  | .data value => (data ++ [value], none)
  | .other => (data, none)
  | .blank => ([], close data)

/-- The data lines of the open frame after more lines, and what the frames came to that ended. -/
def run (data : List Text) : List Text → List Text × List Outcome
  | [] => (data, [])
  | line :: rest =>
    let (data, o) := step data line
    let (data, os) := run data rest
    (data, o.toList ++ os)

/-- What the frames of an event stream come to that is given by its lines. The end of the lines ends
the last frame. -/
def outcomes (lines : List Text) : List Outcome :=
  let (data, os) := run [] lines
  os ++ (close data).toList

theorem run_append (data : List Text) (a b : List Text) :
    run data (a ++ b) = ((run (run data a).1 b).1, (run data a).2 ++ (run (run data a).1 b).2) := by
  induction a generalizing data with
  | nil => simp [run]
  | cons line rest ih => simp [run, ih, List.append_assoc]

end StoryPlayer.Frame

namespace StoryPlayer.Source

/-- The source of frames that come after pauses, of which the first past a limit ends it. -/
def ofFrames (frames : List (List Int × Frame.Outcome)) (lastPauses : List Int) (ending : Ending) :
    Source :=
  ofOutcomes (frames.map fun (pauses, o) => (pauses, o.mapError .unreadable)) lastPauses ending

/-- The source of an event stream that is given by its lines. -/
def ofLines (lines : List Text) : Source :=
  ofFrames ((Frame.outcomes lines).map fun o => ([], o)) [] .stop

end StoryPlayer.Source
