import StoryPlayer.Script.Record

/-!
# Settings of the player

The settings hold the speeds and delays of the player, in milliseconds, and the deadline of a
stream, in seconds. Two of the speeds are kept in their ranges by whatever sets them.
-/

namespace StoryPlayer

open Json Schema

/-- The value nearest to `n` between two bounds; where they cross, the lower bound wins. -/
def clamp (n low high : Int) : Int :=
  max low (min high n)

/-- Milliseconds per character, in the range that a reader can follow. -/
def clampTextSpeed (n : Int) : Int :=
  clamp n 10 200

/-- Milliseconds before the player goes on by itself, in its range. -/
def clampAutoSpeed (n : Int) : Int :=
  clamp n 500 5000

/-- The settings of the player. -/
structure Settings where
  textSpeed : Int
  autoSpeed : Int
  autoMode : Bool
  streamingAdvance : Int
  locationAdvance : Int
  streamTimeout : Float
  hidden : List Text

namespace Settings

/-- The settings of a player for whom none are stored. -/
def default : Settings :=
  ⟨50, 2000, false, 1000, 1000, 30.0, []⟩

/-- The names of the fields, in order. -/
def fieldNames : List String :=
  ["text_speed", "auto_speed", "auto_mode", "streaming_advance_ms", "location_advance_ms",
    "stream_timeout", "hidden_characters"]

/-- The settings that a record describes. -/
def ofValue (v : Value) : Checked Settings :=
  let start := Checked.both Settings.mk
    ((fieldOr "text_speed" default.textSpeed asInteger v).map clampTextSpeed)
    ((fieldOr "auto_speed" default.autoSpeed asInteger v).map clampAutoSpeed)
  let modes := start.apply (fieldOr "auto_mode" default.autoMode asTruth v)
  let delays := (modes.apply
      (fieldOr "streaming_advance_ms" default.streamingAdvance asInteger v)).apply
    (fieldOr "location_advance_ms" default.locationAdvance asInteger v)
  (delays.apply (fieldOr "stream_timeout" default.streamTimeout asNumber v)).apply
    (fieldOr "hidden_characters" default.hidden asTexts v)

/-- The fields of a record of settings. -/
def fields (s : Settings) : List (Text × Value) :=
  [("text_speed", Value.int s.textSpeed), ("auto_speed", .int s.autoSpeed),
    ("auto_mode", .bool s.autoMode), ("streaming_advance_ms", .int s.streamingAdvance),
    ("location_advance_ms", .int s.locationAdvance), ("stream_timeout", .float s.streamTimeout),
    ("hidden_characters", textsValue s.hidden)].map fun (name, v) => (name.toList, v)

def toValue (s : Settings) : Value :=
  .object s.fields

/-- Whether a name is that of a setting. -/
def isField (name : Text) : Bool :=
  fieldNames.any fun f => f.toList == name

/-- The settings with the known fields of a record in place of their own, all checked anew. -/
def merge (s : Settings) (changes : List (Text × Value)) : Checked Settings :=
  ofValue (.object
    ((changes.filter fun c => isField c.1).foldl (fun fs c => assign c.1 c.2 fs) s.fields))

end Settings

end StoryPlayer
