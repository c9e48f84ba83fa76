import StoryPlayer.Stage.Canvas
import StoryPlayer.Script.Palette

/-!
# The stage

The stage keeps the location and the members of the cast that are to be seen, and redraws both
whenever a command changes them. Some members are hidden: they are never drawn. Pictures that the
canvas does not know are replaced, a background by a gradient and a member by a placeholder, so
showing a command never fails.
-/

namespace StoryPlayer

/-- The scene on stage, the names of hidden members in lower case, and the canvas. -/
structure Stage where
  canvas : Canvas
  hidden : List Text
  scene : Scene
deriving Repr, DecidableEq

namespace Stage

/-- An empty stage. Names to be hidden may differ in case from those of the cast. -/
def new (canvas : Canvas) (hidden : List Text) : Stage :=
  ⟨canvas, hidden.map Text.lower, Scene.empty⟩

/-- The members that are not hidden. -/
def visible (s : Stage) (members : List CastMember) : List CastMember :=
  members.filter fun m => Text.lower m.name ∉ s.hidden

/-- Draws the picture of a place, or its gradient. -/
def drawPlace (c : Canvas) (place : Text) : Drawing :=
  match c.background place with
  | .ok d => d
  | .error _ => .gradient (coloursOf place)

/-- Draws a member, or a placeholder. -/
def drawMember (c : Canvas) (m : CastMember) (slot : Slot) : Drawing :=
  match c.character m slot with
  | .ok d => d
  | .error _ => .placeholder m.name slot

/-- The drawings that show a scene on a canvas that was just cleared. There is nothing to draw for a
location that is absent or empty. -/
def picture (c : Canvas) (scene : Scene) : List Drawing :=
  (match scene.location with
    | none | some [] => []
    | some place => [drawPlace c place]) ++
    List.zipWith (drawMember c) scene.cast (slots scene.cast.length)

/-- Clears the canvas and draws the scene. -/
def redraw (s : Stage) : List Drawing :=
  .clear :: picture s.canvas s.scene

/-- The location after a dialogue or action: that of its snapshot, unless it is absent or empty. -/
def moved (old : Option Text) : Option Text → Option Text
  | none | some [] => old
  | some place => some place

/-- Renders a command: the stage after it and what is drawn. A location that is set already is not
drawn again. -/
def render (s : Stage) (c : Command) : Stage × List Drawing :=
  let drawn := fun (scene : Scene) =>
    let t := { s with scene := scene }
    (t, t.redraw)
  match c with
  | .location place _ =>
    if s.scene.location = some place then (s, []) else drawn { s.scene with location := some place }
  | .cast members => drawn { s.scene with cast := s.visible members }
  | .dialogue _ _ _ scene | .action _ scene =>
    drawn ⟨moved s.scene.location scene.location, s.visible scene.cast⟩

/-- Empties the stage and clears the canvas. -/
def reset (s : Stage) : Stage × List Drawing :=
  ({ s with scene := Scene.empty }, [.clear])

/-- Renders commands one after another. -/
def renderAll (s : Stage) : List Command → Stage × List Drawing
  | [] => (s, [])
  | c :: cs =>
    let (t, drawn) := s.render c
    let (u, more) := t.renderAll cs
    (u, drawn ++ more)

end Stage

end StoryPlayer
