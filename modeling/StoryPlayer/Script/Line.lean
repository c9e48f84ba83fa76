import StoryPlayer.Script.Command
import StoryPlayer.Text.Lowercase

/-!
# Lines of a script

Every line is trimmed and then is one of six things, decided by how it starts and, failing that, by
whether it holds a colon. Reading, checking and header detection all begin with `Line.ofText`, so
they agree on what a line is.
-/

namespace StoryPlayer

/-- What a line of a script is. The payloads of the three directives are as written. -/
inductive Line
  | blank
  | location (payload : Text)
  | cast (payload : Text)
  | choices (payload : Text)
  /-- The speaker before the first colon and the text behind it, both trimmed. -/
  | dialogue (speaker text : Text)
  | action (text : Text)
deriving Repr, DecidableEq

namespace Line

/-- The start of a line that names a location. -/
def locationMark : Text :=
  ['L', 'O', 'C', ':']

/-- The start of a line that lists the cast. -/
def castMark : Text :=
  ['C', 'H', 'A', ':']

/-- The start of a line that lists the choices at the end of the turn. -/
def choicesMark : Text :=
  ['S', 'T', 'P', ':']

/-- What a trimmed line is. -/
def ofTrimmed (t : Text) : Line :=
  if t = [] then .blank
  else
    match Text.after? locationMark t with
    | some payload => .location payload
    | none =>
      match Text.after? castMark t with
      | some payload => .cast payload
      | none =>
        match Text.after? choicesMark t with
        | some payload => .choices payload
        | none =>
          match Text.behind? ':' t with
          | some text => .dialogue (Text.trim (Text.before ':' t)) (Text.trim text)
          | none => .action t

/-- What a line is, whatever blanks surround it. -/
def ofText (t : Text) : Line :=
  ofTrimmed (Text.trim t)

/-- The lines of a script text. -/
def all (t : Text) : List Line :=
  (Text.lines t).map ofText

end Line

/-- One entry of a cast list: a name, or a name and a mood behind the first slash. An entry of
blanks names nobody. -/
def castMember? (entry : Text) : Option CastMember :=
  let entry := Text.trim entry
  if entry = [] then none
  else
    match Text.behind? '/' entry with
    | none => some ⟨entry, neutral⟩
    | some mood =>
      let mood := Text.trim mood
      some ⟨Text.trim (Text.before '/' entry), if mood = [] then neutral else mood⟩

/-- The members that the payload of a cast line lists, separated by commas. -/
def castOf (payload : Text) : List CastMember :=
  (Text.pieces ',' payload).filterMap castMember?

/-- The choices that a payload lists, separated by slashes; blank ones are dropped. -/
def choicesOf (payload : Text) : List Text :=
  ((Text.pieces '/' payload).map Text.trim).filter (· ≠ [])

/-- The mood in which the cast list shows a speaker: that of the last member whose name differs at
most in case, and otherwise neutral. -/
def moodOf (speaker : Text) (cast : List CastMember) : Text :=
  match cast.reverse.find? fun m => Text.lower m.name = Text.lower speaker with
  | some m => m.mood
  | none => neutral

end StoryPlayer
