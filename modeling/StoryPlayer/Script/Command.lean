import StoryPlayer.Text.Basic

/-!
# Commands

A script is played as a list of commands. A dialogue or action command carries the scene that was
set when its line was read, so playing it needs no other command.
-/

namespace StoryPlayer

/-- Someone on stage, with the mood to be shown in. -/
structure CastMember where
  name : Text
  mood : Text
deriving Repr, DecidableEq

/-- The mood of a cast member for whom none is given. -/
def neutral : Text :=
  ['n', 'e', 'u', 't', 'r', 'a', 'l']

/-- Where the story is and who is on stage. The location is absent until one is named. -/
structure Scene where
  location : Option Text
  cast : List CastMember
deriving Repr, DecidableEq

/-- The scene before any line. -/
def Scene.empty : Scene :=
  ⟨none, []⟩

/-- One step of a story. -/
inductive Command
  /-- The story moves to a place, drawn in these colours when it has no picture. -/
  | location (place : Text) (colours : List Text)
  /-- These members, and no others, are on stage. -/
  | cast (members : List CastMember)
  | dialogue (speaker text mood : Text) (scene : Scene)
  | action (text : Text) (scene : Scene)
deriving Repr, DecidableEq

namespace Command

/-- Whether the command only changes who is on stage. -/
def isCast : Command → Bool
  | cast _ => true
  | _ => false

/-- The text that the command puts into the dialogue box, if it is one that does. -/
def spoken? : Command → Option Text
  | dialogue _ text _ _ => some text
  | action text _ => some text
  | _ => none

end Command

end StoryPlayer
