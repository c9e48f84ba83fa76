import StoryPlayer.Text.Basic

/-!
# Slots on the stage

Every member of the cast stands at the left, in the centre or at the right. Three members or fewer
have fixed slots; more are spread by how far along the list they are, with a centre that takes the
four tenths in the middle.
-/

namespace StoryPlayer

/-- Where a cast member stands. -/
inductive Slot
  | left
  | center
  | right
deriving Repr, DecidableEq

def Slot.name : Slot → String
  | left => "left"
  | center => "center"
  | right => "right"

/-- The slot at position `i` of a list whose last position is `last`: left before three tenths of
the way, right after seven tenths. -/
def slotAt (last i : Nat) : Slot :=
  if 10 * i < 3 * last then .left else if 7 * last < 10 * i then .right else .center

/-- The slots of `count` members in the order of the list. -/
def slots : Nat → List Slot
  | 0 => []
  | 1 => [.center]
  | 2 => [.left, .right]
  | 3 => [.left, .center, .right]
  | n + 4 => (List.range (n + 4)).map (slotAt (n + 3))

/-- The slots of a number of members that may be given as any integer. -/
def slotsOfInt (count : Int) : List Slot :=
  slots count.toNat

end StoryPlayer
