import StoryPlayer.Script.Record

/-!
# Summaries of scripts

A summary counts the lines of a script and lists its places and the members of its cast, each once
and in the order in which they first come. Only cast commands put members into it.
-/

namespace StoryPlayer

/-- Puts a text behind the others unless it is among them. -/
def addOnce (t : Text) (ts : List Text) : List Text :=
  if t ∈ ts then ts else ts ++ [t]

/-- Notes a member's mood under the member's name. -/
def addMood (m : CastMember) : List (Text × List Text) → List (Text × List Text)
  | [] => [(m.name, [m.mood])]
  | (name, moods) :: rest =>
    if name = m.name then (name, addOnce m.mood moods) :: rest else (name, moods) :: addMood m rest

/-- What a script holds. -/
structure Summary where
  places : List Text
  cast : List (Text × List Text)
  dialogues : Nat
  actions : Nat
  total : Nat
deriving Repr, DecidableEq

namespace Summary

/-- The summary of no command. -/
def empty : Summary :=
  ⟨[], [], 0, 0, 0⟩

/-- The summary with one command more. -/
def add (s : Summary) (c : Command) : Summary :=
  let s := { s with total := s.total + 1 }
  match c with
  | .location place _ => { s with places := addOnce place s.places }
  | .cast members => { s with cast := members.foldl (fun cast m => addMood m cast) s.cast }
  | .dialogue .. => { s with dialogues := s.dialogues + 1 }
  | .action .. => { s with actions := s.actions + 1 }

/-- The summary of a list of commands. -/
def ofCommands (cs : List Command) : Summary :=
  cs.foldl add empty

def toValue (s : Summary) : Json.Value :=
  objectOf [("locations", textsValue s.places),
    ("characters", .list (s.cast.map fun (name, moods) =>
      objectOf [("name", .text name), ("moods", textsValue moods)])),
    ("dialogue_lines", .int s.dialogues), ("action_lines", .int s.actions),
    ("total_commands", .int s.total)]

end Summary

end StoryPlayer
