import StoryPlayer.Text.Basic

/-!
# Colours of places

A place that has no picture is drawn as a gradient. The places known by name have colours of their
own, and every other one shares two.
-/

namespace StoryPlayer

/-- The colours of the places known by name. -/
def palette : List (Text × List Text) :=
  [("forest_clearing", ["#228B22", "#90EE90"]),
   ("castle_hall", ["#8B4513", "#DAA520"]),
   ("beach", ["#87CEEB", "#F0E68C", "#FFE4B5"]),
   ("mountain", ["#696969", "#C0C0C0"]),
   ("city", ["#708090", "#2F4F4F"]),
   ("room", ["#DEB887", "#F5DEB3"]),
   ("library", ["#8B4513", "#DEB887"]),
   ("garden", ["#9ACD32", "#98FB98"])].map fun (place, colours) =>
    (place.toList, colours.map String.toList)

/-- The colours of a place that has none of its own. -/
def commonColours : List Text :=
  ["#87CEEB".toList, "#FFB6C1".toList]

/-- The gradient in which a place is drawn. -/
def coloursOf (place : Text) : List Text :=
  (palette.lookup place).getD commonColours

end StoryPlayer
