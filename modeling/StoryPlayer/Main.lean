import StoryPlayer.Terminal.Play

/-!
# The command line

The outer layer: it reads files, keeps the time and prints. A story is played at the speed of the
settings, and what is printed is what `Terminal.perform` says. There is no network behind it, so a
server is never reached.
-/

namespace StoryPlayer.Terminal

/-- The text of a file, if there is one that can be read. -/
def fileText? (p : Path) : IO (Option Text) := do
  try
    let t ← IO.FS.readFile (String.ofList p.toText)
    return some (Text.withLineFeeds t.toList)
  catch _ =>
    return none

/-- Prints a text at once. -/
def say (t : Text) : IO Unit := do
  let out ← IO.getStdout
  out.putStr (String.ofList t)
  out.flush

/-- Reports a text and gives the status of a failure. -/
def complain (t : Text) : IO UInt32 := do
  (← IO.getStderr).putStrLn (String.ofList t)
  return 1

/-- How the program is called. -/
def usage : String :=
  "usage: story-player [--data-dir FOLDER] [--message TEXT]\n" ++
    "                    (--script FILE | --simulate FILE | --stream ADDRESS)"

/-- Plays a session in time, of which some displays have been printed. -/
partial def pace (shown : Nat) (s : Session) : IO Session := do
  let ds := displays s.player.cues.toList
  say (transcript (ds.drop shown))
  if isOver s then return s
  IO.sleep 50
  pace ds.length (s.tick (microsOfMillis 50))

/-- Plays a story in time. -/
def playInTime (settings : Settings) (story : Story) : IO UInt32 := do
  let s ← pace 0 (start settings story)
  match failure? s with
  | some f =>
    if f.isOfStream then
      (← IO.getStderr).putStr (String.ofList (report f))
      return 0
    else complain f.message
  | none =>
    say (choiceList (choices s))
    return 0

/-- The story of an origin, or the file that is not there. -/
def storyIn (o : Options) (origin : Origin) : IO (Except Obstacle Story) := do
  let reading := fun (p : Path) (f : Text → Story) => do
    match ← fileText? p with
    | some t => return .ok (f t)
    | none => return .error (.file ⟨.missing, p⟩)
  match origin with
  | .script p => reading p .script
  | .replay p => reading p .replay
  | .stream url =>
    let key := ((← IO.getEnv "VN_API_KEY").getD "").toList
    return .ok (.stream (o.request url key) (.unconnected .noConnection))

/-- Does what the options ask for. -/
def carryOut (o : Options) : IO UInt32 := do
  match o.origin? with
  | none =>
    IO.eprintln usage
    return 2
  | some origin =>
    IO.FS.createDirAll (String.ofList o.settingsFolder.toText)
    let file :=
      match ← fileText? o.settingsPath with
      | some t => SettingsFile.new.put t
      | none => SettingsFile.new
    match file.get with
    | .error e => complain e.message
    | .ok settings =>
      match ← storyIn o origin with
      | .error e => complain e.message
      | .ok story => playInTime settings story

end StoryPlayer.Terminal

open StoryPlayer.Terminal in
/-- Plays a story in the terminal. -/
def main (line : List String) : IO UInt32 := do
  match Options.read (line.map String.toList) with
  | .options o => carryOut o
  | .help =>
    IO.println usage
    return 0
  | .refused =>
    IO.eprintln usage
    return 2
