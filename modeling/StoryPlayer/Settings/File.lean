import StoryPlayer.Json.Reader
import StoryPlayer.Json.Writer
import StoryPlayer.Settings.Basic
import StoryPlayer.Text.Encoding
import StoryPlayer.Text.Newline

/-!
# Stored settings

The settings of a player are kept in a file. What the file does not name has its default, names that
are no settings are passed over, and a text that is no JSON counts as no file at all. A text that
runs into a limit of the reader is a fault all the same. A change is checked together with
everything that is stored, and stored only when all of it passes and can be encoded.
-/

namespace StoryPlayer

open Json Schema

/-- The kind of a value as messages name it. -/
def Json.Value.kindName : Value → String
  | .null => "NoneType"
  | .bool _ => "bool"
  | .int _ => "int"
  | .float _ => "float"
  | .text _ => "str"
  | .list _ => "list"
  | .object _ => "dict"

/-- The file in which settings are kept. -/
structure SettingsFile where
  /-- Whether it is known where the file is. -/
  placed : Bool
  /-- The text of the file, unless there is none. -/
  text : Option Text
deriving Repr, DecidableEq

/-- Why settings cannot be had. -/
inductive SettingsFault
  /-- It is not known where the file is. -/
  | unplaced
  /-- What is stored runs into a limit of its reader. -/
  | unreadable (limit : Limit)
  /-- What should hold settings is a value of another kind. -/
  | shape (v : Value)
  /-- A setting does not pass its check. -/
  | invalid (complaints : List Complaint)
  /-- A setting cannot be encoded. -/
  | unencodable (u : Text.Unencodable)

def SettingsFault.message : SettingsFault → Text
  | unplaced => "Call init_config() before reading settings".toList
  | unreadable limit => limit.message
  | shape v => '\'' :: v.kindName.toList ++ "' object has no attribute 'items'".toList
  | invalid complaints => describe complaints
  | unencodable u => "Error serializing to JSON: UnicodeEncodeError: ".toList ++ u.message

namespace SettingsFile

/-- The place of a file that is not there yet. -/
def new : SettingsFile :=
  ⟨true, none⟩

/-- Puts a text into the file. -/
def put (f : SettingsFile) (t : Text) : SettingsFile :=
  { f with text := some (Text.withLineFeeds t) }

/-- Takes the file away. -/
def remove (f : SettingsFile) : SettingsFile :=
  { f with text := none }

/-- The fields of a value that should be a record. -/
def fieldsOf : Value → Except SettingsFault (List (Text × Value))
  | .object fields => .ok fields
  | v => .error (.shape v)

/-- What is stored, an empty record when there is no file or none that holds JSON. -/
def stored (f : SettingsFile) : Except SettingsFault Value :=
  match f.text.map read with
  | some (.ok v) => .ok v
  | some (.error (.beyond limit)) => .error (.unreadable limit)
  | some (.error (.malformed ..)) | none => .ok (.object [])

/-- The result of a check, its complaints as a fault. -/
def passed (c : Checked Settings) : Except SettingsFault Settings :=
  match c with
  | .ok s => .ok s
  | .error complaints => .error (.invalid complaints)

/-- The settings: the defaults with what is stored in their place. -/
def get (f : SettingsFile) : Except SettingsFault Settings :=
  if f.placed then do
    let fields ← fieldsOf (← f.stored)
    passed (Settings.ofValue (.object fields))
  else .error .unplaced

/-- Puts settings into the file, which they can be if all their texts can be encoded. -/
def store (f : SettingsFile) (s : Settings) : Except SettingsFault SettingsFile :=
  match s.hidden.findSome? Text.Encoding.utf8.unencodable? with
  | some u => .error (.unencodable u)
  | none => .ok { f with text := some s.toValue.writeIndented }

/-- Changes the settings that a record names: the file with all settings and the settings. -/
def update (f : SettingsFile) (changes : Value) :
    Except SettingsFault (SettingsFile × Settings) := do
  let current ← f.get
  let fields ← fieldsOf changes
  let settings ← passed (current.merge fields)
  return (← f.store settings, settings)

end SettingsFile

end StoryPlayer
