import StoryPlayer.Script.Line
import StoryPlayer.Script.Palette

/-!
# Reading a script

A script is read from top to bottom while the scene is kept. A directive changes the scene, a
dialogue or action takes a snapshot of it, and a line that lists choices is no command. Every text
is a script: what is no directive and no dialogue is an action.

Reading can go on where it stopped. `Reading.ofLines_append` says that a text read piece by piece,
each piece from the scene that the one before it left, gives what the whole text gives.
-/

namespace StoryPlayer

namespace Line

/-- The scene behind a line. -/
def scene (s : Scene) : Line → Scene
  | .location payload => { s with location := some (Text.trim payload) }
  | .cast payload => { s with cast := castOf payload }
  | _ => s

/-- The command that a line stands for while `s` is the scene. -/
def command? (s : Scene) : Line → Option Command
  | .location payload => some (.location (Text.trim payload) (coloursOf (Text.trim payload)))
  | .cast payload => some (.cast (castOf payload))
  | .dialogue speaker text => some (.dialogue speaker text (moodOf speaker s.cast) s)
  | .action text => some (.action text s)
  | _ => none

/-- The choices that a line lists, if it is one that does. -/
def choices? : Line → Option (List Text)
  | .choices payload => some (choicesOf payload)
  | _ => none

end Line

/-- What reading a script gives: its commands, the scene at its end, and the choices of its last
line of choices. They are absent when there is no such line and empty when it lists none. -/
structure Reading where
  commands : List Command
  scene : Scene
  choices : Option (List Text)
deriving Repr, DecidableEq

namespace Reading

/-- Reads lines one after another from a scene. -/
def ofLines (s : Scene) : List Line → Reading
  | [] => ⟨[], s, none⟩
  | l :: ls =>
    let rest := ofLines (l.scene s) ls
    ⟨(l.command? s).toList ++ rest.commands, rest.scene, rest.choices <|> l.choices?⟩

/-- Two readings as one. -/
def append (a b : Reading) : Reading :=
  ⟨a.commands ++ b.commands, b.scene, b.choices <|> a.choices⟩

theorem ofLines_append (s : Scene) (ls ms : List Line) :
    ofLines s (ls ++ ms) = (ofLines s ls).append (ofLines (ofLines s ls).scene ms) := by
  induction ls generalizing s with
  | nil => simp [ofLines, append]
  | cons l ls ih =>
    simp only [List.cons_append, ofLines, ih, append, List.append_assoc]
    cases (ofLines (ofLines (l.scene s) ls).scene ms).choices <;> rfl

/-- The choices, none when no line lists any. -/
def offered (r : Reading) : List Text :=
  r.choices.getD []

end Reading

/-- Reads a script text from a scene. -/
def readScript (t : Text) (s : Scene) : Reading :=
  Reading.ofLines s (Line.all t)

end StoryPlayer
