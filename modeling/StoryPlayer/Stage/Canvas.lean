import StoryPlayer.Stage.Slot
import StoryPlayer.Script.Command
import StoryPlayer.Text.Lowercase

/-!
# The canvas

A canvas draws nothing and keeps what it is asked to draw. It may know only some pictures: a picture
that it does not know is refused by name, and whoever asked draws something simpler instead.
-/

namespace StoryPlayer

/-- One thing drawn. -/
inductive Drawing
  | clear
  | background (place : Text)
  | gradient (colours : List Text)
  | character (member : CastMember) (slot : Slot)
  | placeholder (name : Text) (slot : Slot)
deriving Repr, DecidableEq

/-- The pictures that a canvas knows. `none` stands for all of them. -/
structure Canvas where
  backgrounds : Option (List Text)
  sprites : Option (List Text)
deriving Repr, DecidableEq

/-- A picture that a canvas does not know. -/
inductive Missing
  | background (place : Text)
  | character (member : CastMember)
deriving Repr, DecidableEq

/-- The name under which a picture is looked up. -/
def Missing.asset : Missing → Text
  | background place => "background/".toList ++ place
  | character m => "character/".toList ++ m.name ++ '/' :: m.mood

def Missing.message (m : Missing) : Text :=
  "Asset not found: ".toList ++ m.asset

namespace Canvas

/-- A canvas that knows every picture. -/
def full : Canvas :=
  ⟨none, none⟩

/-- Whether the canvas has a picture of a place. -/
def hasBackground (c : Canvas) (place : Text) : Bool :=
  match c.backgrounds with
  | none => true
  | some places => decide (place ∈ places)

/-- Whether the canvas has a picture of a member, under a name that may differ in case. -/
def hasSprite (c : Canvas) (name : Text) : Bool :=
  match c.sprites with
  | none => true
  | some names => decide (Text.lower name ∈ names.map Text.lower)

/-- Draws the picture of a place. -/
def background (c : Canvas) (place : Text) : Except Missing Drawing :=
  if c.hasBackground place then .ok (.background place) else .error (.background place)

/-- Draws the picture of a member. -/
def character (c : Canvas) (m : CastMember) (slot : Slot) : Except Missing Drawing :=
  if c.hasSprite m.name then .ok (.character m slot) else .error (.character m)

end Canvas

end StoryPlayer
