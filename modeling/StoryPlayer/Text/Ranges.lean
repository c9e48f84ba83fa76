/-!
# Ranges of code points

A property of characters is stored as closed ranges of code points, ascending and apart.
-/

namespace StoryPlayer.Text

/-- Whether a code point lies in one of the closed ranges. -/
def within (ranges : List (Nat × Nat)) (n : Nat) : Bool :=
  ranges.any fun r => r.1 ≤ n && n ≤ r.2

end StoryPlayer.Text
