import StoryPlayer.Player.Basic
import StoryPlayer.Stage.Basic

/-!
# A stage that follows the player

The stage acts on the cues that concern it, in their order: it renders commands and is emptied.
-/

namespace StoryPlayer

/-- The states of the dialogue box among cues. -/
def displays (cues : List Cue) : List Display :=
  cues.filterMap fun c =>
    match c with
    | .display d => some d
    | _ => none

/-- The commands to be rendered among cues. -/
def renders (cues : List Cue) : List Command :=
  cues.filterMap fun c =>
    match c with
    | .render c => some c
    | _ => none

namespace Stage

/-- Acts on one cue. -/
def act (s : Stage) : Cue → Stage × List Drawing
  | .render c => s.render c
  | .reset => s.reset
  | .display _ => (s, [])

/-- Acts on cues one after another: the stage after them and what is drawn. -/
def follow (s : Stage) : List Cue → Stage × List Drawing
  | [] => (s, [])
  | c :: cs =>
    let (t, drawn) := s.act c
    let (u, more) := t.follow cs
    (u, drawn ++ more)

end Stage

end StoryPlayer
