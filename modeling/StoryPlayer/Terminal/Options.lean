import StoryPlayer.Text.Digit

/-!
# The options of the command line

Every option but the one for help takes a value, which is the next word or stands behind an equals
sign. The name of an option may be cut short as long as it still names one option only. Of an option
that comes again the last value counts. A word that belongs to no option makes the whole line
refused, but help that was asked for in front of the first fault is given all the same.

A word that starts with a dash is a value only if it is a single dash, a negative number, or a word
with a space in it that begins like no option.
-/

namespace StoryPlayer.Terminal

/-- The names of options. -/
inductive Flag
  | help
  | dataFolder
  | script
  | simulate
  | stream
  | message
deriving Repr, DecidableEq

namespace Flag

def all : List Flag :=
  [help, dataFolder, script, simulate, stream, message]

/-- An option as it is written. -/
def name : Flag → Text
  | help => "--help".toList
  | dataFolder => "--data-dir".toList
  | script => "--script".toList
  | simulate => "--simulate".toList
  | stream => "--stream".toList
  | message => "--message".toList

/-- The options whose names start with a text; an option that is named in full is the only one. -/
def named (t : Text) : List Flag :=
  match all.find? fun f => f.name = t with
  | some f => [f]
  | none => all.filter fun f => t.isPrefixOf f.name

end Flag

/-- A word of the command line. -/
inductive Word
  /-- An option and the value behind its equals sign. -/
  | option (f : Flag) (given : Option Text)
  /-- The short name of the option for help, and whether nothing but its letter follows it. -/
  | shortHelp (isAlone : Bool)
  /-- What starts like several options. -/
  | ambiguous
  /-- What looks like an option and is none. -/
  | unknown
  /-- What separates options from values. -/
  | separator
  | value (t : Text)
deriving Repr, DecidableEq

namespace Word

/-- A text without the line feed that may stand at its end. -/
def unended (t : Text) : Text :=
  if t.getLast? = some '\n' then t.dropLast else t

/-- Whether a text is a negative number in digits of any script, perhaps with a point. -/
def isNegative (t : Text) : Bool :=
  match unended t with
  | '-' :: body =>
    let whole := body.takeWhile Text.isDecimal
    match body.dropWhile Text.isDecimal with
    | [] => whole != []
    | '.' :: fraction => fraction != [] && fraction.all Text.isDecimal
    | _ => false
  | _ => false

/-- Whether the short name of the option for help may stand in front of a text: letters that ask for
help again, perhaps behind an equals sign. -/
def repeatsHelp : Text → Bool
  | '=' :: again => again != [] && again.all (· == 'h')
  | again => again.all (· == 'h')

/-- The word that looks like an option but names none. -/
def other (t : Text) : Word :=
  if isNegative t || t.contains ' ' then .value t else .unknown

/-- The word that a text is. -/
def ofText (t : Text) : Word :=
  match t with
  | ['-'] => .value t
  | ['-', '-'] => .separator
  | '-' :: '-' :: _ =>
    let given := Text.behind? '=' t
    match Flag.all.find? fun f => f.name = t, Flag.named (Text.before '=' t) with
    | some f, _ => .option f none
    | none, [f] => .option f given
    | none, _ :: _ :: _ => .ambiguous
    | none, [] => other t
  | '-' :: 'h' :: rest => .shortHelp (repeatsHelp rest)
  | '-' :: _ => other t
  | _ => .value t

/-- The words that texts are; behind a separator every text is a value. -/
def ofTexts : List Text → List Word
  | [] => []
  | t :: ts =>
    match ofText t with
    | .separator => .separator :: ts.map .value
    | w => w :: ofTexts ts

end Word

/-- What the command line asks for. -/
structure Options where
  dataFolder : Text
  script : Option Text
  simulate : Option Text
  stream : Option Text
  message : Text
deriving Repr, DecidableEq

/-- What a command line means. -/
inductive Request
  | options (o : Options)
  | help
  | refused
deriving Repr, DecidableEq

namespace Options

/-- The options of a command line that gives none. -/
def default : Options :=
  ⟨"data".toList, none, none, none, "Continue the story".toList⟩

/-- Gives an option a value. -/
def set (o : Options) (f : Flag) (t : Text) : Options :=
  match f with
  | .help => o
  | .dataFolder => { o with dataFolder := t }
  | .script => { o with script := some t }
  | .simulate => { o with simulate := some t }
  | .stream => { o with stream := some t }
  | .message => { o with message := t }

/-- Takes words one after another; `stray` tells whether one was met that belongs to no option. -/
def take (o : Options) (stray : Bool) : List Word → Request
  | [] => if stray then .refused else .options o
  | .option .help none :: _ => .help
  | .option .help (some _) :: _ => .refused
  | .option f (some t) :: rest => (o.set f t).take stray rest
  | .option f none :: .value t :: rest => (o.set f t).take stray rest
  | .option _ none :: _ => .refused
  | .shortHelp isAlone :: _ => if isAlone then .help else .refused
  | _ :: rest => o.take true rest

/-- What a command line means. -/
def read (line : List Text) : Request :=
  let words := Word.ofTexts line
  if .ambiguous ∈ words then .refused else default.take false words

end Options

end StoryPlayer.Terminal
