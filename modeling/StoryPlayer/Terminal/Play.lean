import StoryPlayer.Session.Clock
import StoryPlayer.Settings.File
import StoryPlayer.Stage.Follow
import StoryPlayer.Terminal.Folder
import StoryPlayer.Terminal.Options
import StoryPlayer.Wire.Exchange

/-!
# Playing in a terminal

A story is played by itself, from its first line to its last, and every line is printed when all of
it has been revealed. The choices at its end are listed below it. A stream that fails is reported
apart from the story, of which what had come is still played, and then no choices are listed. Any
other failure breaks the play off.

A story comes from a script, from a script that is replayed as if it were streaming in, or from a
server. Settings are read before the story.
-/

namespace StoryPlayer.Terminal

open Json

/-! ## What is printed -/

/-- A line of the story with its speaker, if it has one. -/
def lineOf (d : Display) : Text :=
  (if d.speaker = [] then [] else d.speaker ++ [':', ' ']) ++ d.text ++ ['\n']

/-- The lines that were revealed completely. -/
def transcript (ds : List Display) : Text :=
  (ds.filter (·.showContinue)).flatMap lineOf

/-- Choices numbered from `n`. -/
def numbered (n : Nat) : List Text → Text
  | [] => []
  | c :: cs => [' ', ' '] ++ Text.ofNat n ++ ['.', ' '] ++ c ++ '\n' :: numbered (n + 1) cs

/-- The list of choices, nothing when there are none. -/
def choiceList (cs : List Text) : Text :=
  if cs = [] then [] else "\nWhat next?\n".toList ++ numbered 1 cs

/-- The report of a stream that failed. -/
def report (f : Failure) : Text :=
  "\n[stream failed] ".toList ++ f.message ++ ['\n']

/-! ## Stories -/

/-- Where a story comes from, once everything is at hand. -/
inductive Story
  | script (t : Text)
  | replay (t : Text)
  | stream (r : Wire.Request) (a : Wire.Answer)

/-- The characters of a chunk of a story that is replayed. -/
def chunkSize : Nat := 32

/-- The microseconds in front of each chunk. -/
def chunkWait : Int := microsOfMillis 50

/-- What plays a story. -/
def Story.action : Story → Action
  | script t => .batch [.load t false, .start]
  | replay t => .consume (Source.replay t chunkSize chunkWait)
  | stream r a => .consume (Wire.sourceOf r a)

/-- A session that plays by itself and has begun with a story. -/
def start (settings : Settings) (story : Story) : Session :=
  ((Session.new (.new { settings with autoMode := true }) false).addIntake
    (.float settings.streamTimeout) false).call 0 story.action

/-- The story as far as a session has printed it. -/
def printed (s : Session) : Text :=
  transcript (displays s.player.cues.toList)

/-- The failure of the stream, if it has failed. -/
def failure? (s : Session) : Option Failure :=
  s.finished.toList.findSome? fun (_, r) =>
    match r with
    | .failed f => some f
    | _ => none

/-- The choices with which a session has ended: those of the stream, or those of the script. -/
def choices (s : Session) : List Text :=
  match s.finished.toList with
  | (_, .choices cs) :: _ => cs
  | (_, .failed _) :: _ => []
  | _ => s.player.choices

/-- Whether a failure has broken the play off. -/
def isBroken (s : Session) : Bool :=
  ((failure? s).map fun f => !f.isOfStream).getD false

/-- Whether the story has been read and is not being played. -/
def isOver (s : Session) : Bool :=
  isBroken s || !s.finished.isEmpty && (s.player.phase = .ended || s.player.phase = .idle)

/-- Whether the source of a session was asked for anything. -/
def hasAsked (s : Session) : Bool :=
  s.nextId != 0

/-- What playing a story printed, whether its source was asked, what broke the play off, and whether
it came to an end. One that comes to none has nothing more to print and goes on for ever. -/
structure Performance where
  output : Text
  errors : Text
  asked : Bool
  broken : Option Failure
  ends : Bool

/-- Plays a story to its end, or to the failure that breaks it off. -/
def perform (settings : Settings) (story : Story) : Performance :=
  let s := (start settings story).runToAnswer
  match failure? s with
  | some f =>
    if f.isOfStream then
      let s := s.run
      ⟨printed s, report f, hasAsked s, none, isOver s⟩
    else ⟨printed s, [], hasAsked s, some f, true⟩
  | none =>
    let s := s.run
    let listed := if isOver s then choiceList (choices s) else []
    ⟨printed s ++ listed, [], hasAsked s, none, isOver s⟩

/-! ## Command lines -/

/-- Where a story is to come from. -/
inductive Origin
  | script (path : Path)
  | replay (path : Path)
  | stream (url : Text)
deriving Repr, DecidableEq

namespace Options

/-- Where the story is to come from. A stream goes before a replay and that before a script; an
empty address is none. -/
def origin? (o : Options) : Option Origin :=
  match o.stream, o.simulate, o.script with
  | some (c :: url), _, _ => some (.stream (c :: url))
  | _, some path, _ => some (.replay (Path.ofText path))
  | _, _, some path => some (.script (Path.ofText path))
  | _, _, none => none

def settingsFolder (o : Options) : Path :=
  Path.ofText o.dataFolder

def settingsPath (o : Options) : Path :=
  o.settingsFolder.child "config.json".toList

/-- The request that asks a server for the story. -/
def request (o : Options) (url key : Text) : Wire.Request :=
  .new url (objectOf [("message", .text o.message)]) key Wire.Request.defaultTimeout

end Options

/-- Why nothing can be played. -/
inductive Obstacle
  | settings (f : SettingsFault)
  | file (f : FileFault)

def Obstacle.message : Obstacle → Text
  | settings f => f.message
  | file f => f.message

/-- The settings file of a folder: what is under its path, unless that is no file. -/
def settingsFile (f : Folder) (p : Path) : Except Obstacle SettingsFile :=
  match f.read p with
  | .ok t => .ok (SettingsFile.new.put t)
  | .error e => if e.cause = .tooLong then .error (.file e) else .ok .new

/-- A file that has to be there. -/
def fileText (f : Folder) (p : Path) : Except Obstacle Text :=
  match f.read p with
  | .ok t => .ok t
  | .error e => .error (.file e)

/-- The story of an origin. -/
def story (o : Options) (f : Folder) (key : Text) (a : Wire.Answer) :
    Origin → Except Obstacle Story
  | .script path => do return .script (← fileText f path)
  | .replay path => do return .replay (← fileText f path)
  | .stream url => .ok (.stream (o.request url key) a)

/-- Plays the story of an origin as the options say, in a folder, with a key for the server and with
what the server answers. -/
def play (o : Options) (origin : Origin) (f : Folder) (key : Text) (a : Wire.Answer) :
    Except Obstacle Performance := do
  let f ← match f.make o.settingsFolder with
    | .ok f => .ok f
    | .error e => .error (.file e)
  let settings ← match (← settingsFile f o.settingsPath).get with
    | .ok s => .ok s
    | .error e => .error (.settings e)
  return perform settings (← story o f key a origin)

end StoryPlayer.Terminal
