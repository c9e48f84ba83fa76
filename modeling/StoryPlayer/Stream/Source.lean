import StoryPlayer.Stream.Failure
import StoryPlayer.Stream.Record

/-!
# Sources of a stream

A source is what will come and when: records, each after its pauses, and an ending after the last
ones. However records come about, a source is known before it is read, so reading it needs nothing
but a clock.
-/

namespace StoryPlayer

/-- A record and the pauses before it comes, in microseconds. A pause that is not positive lets
others go first and takes no time. -/
structure Arrival where
  pauses : List Int
  record : StreamRecord
deriving Repr, DecidableEq

/-- How a source ends. -/
inductive Ending
  | stop
  /-- Nothing comes any more, not even an end. -/
  | hang
  | fail (f : Failure)

/-- What comes from a stream. -/
structure Source where
  arrivals : List Arrival
  /-- The pauses behind the last record. -/
  lastPauses : List Int
  ending : Ending

namespace Source

def records (s : Source) : List StreamRecord :=
  s.arrivals.map (·.record)

/-- A source that fails at once. -/
def failing (f : Failure) : Source :=
  ⟨[], [], .fail f⟩

/-- The source of what comes after pauses, with an ending after the last ones. The first failure
ends it at once. -/
def ofOutcomes (comings : List (List Int × Except Failure StreamRecord)) (lastPauses : List Int)
    (ending : Ending) : Source :=
  match comings with
  | [] => ⟨[], lastPauses, ending⟩
  | (pauses, .error f) :: _ => ⟨[], pauses, .fail f⟩
  | (pauses, .ok r) :: rest =>
    let s := ofOutcomes rest lastPauses ending
    { s with arrivals := ⟨pauses, r⟩ :: s.arrivals }

/-- The pieces of `size` characters into which a text is cut; the last one may be shorter. Of
`fuel` there is enough when it is at least the length of the text. -/
def cut (size : Nat) : Nat → Text → List Text
  | 0, _ => []
  | fuel + 1, t => if t = [] then [] else t.take size :: cut size fuel (t.drop size)

/-- A finished script as chunks of `size` characters, each after a pause unless it is zero, and then
a done record with the whole of it. -/
def replay (t : Text) (size : Nat) (pause : Int) : Source :=
  let pauses := if pause = 0 then [] else [pause]
  let chunks := (cut size t.length t).map fun piece => ⟨pauses, ⟨.chunk, piece⟩⟩
  ⟨chunks ++ [⟨[], ⟨.done, t⟩⟩], [], .stop⟩

/-- The source of a finished script for any number as chunk size, of which only the positive ones
will do. -/
def replay? (t : Text) (size pause : Int) : Except Failure Source :=
  if size < 1 then .error .chunkSize else .ok (replay t size.toNat pause)

end Source

end StoryPlayer
