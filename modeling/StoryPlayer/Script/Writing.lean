import StoryPlayer.Script.Line

/-!
# Writing a script

Commands are written one to a line, each in the form that reading takes back, and a line of choices
comes last when there is one.
-/

namespace StoryPlayer

/-- A member as an entry of a cast list. -/
def CastMember.entry (m : CastMember) : Text :=
  m.name ++ '/' :: m.mood

/-- The line of a command. -/
def Command.line : Command → Text
  | .location place _ => Line.locationMark ++ ' ' :: place
  | .cast members => Line.castMark ++ ' ' :: Text.join [',', ' '] (members.map CastMember.entry)
  | .dialogue speaker text _ _ => speaker ++ ':' :: ' ' :: text
  | .action text _ => text

/-- The line of a list of choices. -/
def choicesLine (choices : List Text) : Text :=
  Line.choicesMark ++ ' ' :: Text.join [' ', '/', ' '] choices

/-- The script text of a list of commands and of the choices behind them. -/
def writeScript (commands : List Command) (choices : Option (List Text)) : Text :=
  Text.join ['\n'] (commands.map Command.line ++ (choices.map choicesLine).toList)

end StoryPlayer
