import StoryPlayer.Stream.Frame
import StoryPlayer.Wire.Lines
import StoryPlayer.Wire.Utf8

/-!
# Frames in a body

Octets become characters, characters lines, and lines frames. Each step keeps what is not complete,
so what a body gives depends on the octets received and not on the pieces in which they came.
-/

namespace StoryPlayer.Wire

/-- What is kept between two pieces of a body. -/
structure Body where
  charset : Charset
  sequence : Option Sequence
  line : OpenLine
  data : List Text
deriving Repr, DecidableEq

namespace Body

/-- A body of which nothing has come. -/
def new (c : Charset) : Body :=
  ⟨c, none, .none, []⟩

/-- Takes characters: the body behind them and what the frames came to that ended. -/
def takeText (b : Body) (t : Text) : Body × List Frame.Outcome :=
  let (ended, line) := cut b.line t
  let (data, outcomes) := Frame.run b.data ended
  ({ b with line := line, data := data }, outcomes)

/-- Takes octets: the body behind them and what the frames came to that ended. -/
def take (b : Body) (octets : List UInt8) : Body × List Frame.Outcome :=
  let (t, sequence) := decode b.charset b.sequence octets
  { b with sequence := sequence }.takeText t

/-- What the frames come to at the end of a body, where what was kept is complete. -/
def close (b : Body) : List Frame.Outcome :=
  let (b, outcomes) := b.takeText (decodeEnd b.sequence)
  let (data, last) := Frame.run b.data (cutEnd b.line)
  outcomes ++ last ++ (Frame.close data).toList

end Body

end StoryPlayer.Wire
