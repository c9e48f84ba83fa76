import StoryPlayer.Script.Command
import StoryPlayer.Schema.Field

/-!
# Commands as records

Commands leave and enter as JSON objects that name their kind. Writing puts down every field, and
reading fills in the fields that may be left out and ignores those it does not know.
-/

namespace StoryPlayer

open Json Schema

/-- A text as a JSON value, or null. -/
def optionValue : Option Text → Value
  | none => .null
  | some t => .text t

/-- An object with these fields. -/
def objectOf (fields : List (String × Value)) : Value :=
  .object (fields.map fun (name, v) => (name.toList, v))

/-- A list of texts as a JSON value. -/
def textsValue (ts : List Text) : Value :=
  .list (ts.map .text)

namespace CastMember

/-- A cast member as a record. -/
def toValue (m : CastMember) : Value :=
  objectOf [("name", .text m.name), ("mood", .text m.mood)]

/-- The cast member that a record describes. -/
def ofValue : Value → Checked CastMember
  | .object fields =>
    let v := Value.object fields
    .both CastMember.mk (field "name" asText v) (fieldOr "mood" neutral asText v)
  | _ => .fail .record

end CastMember

namespace Scene

/-- The two fields of a scene. -/
def fields (s : Scene) : List (String × Value) :=
  [("location", optionValue s.location), ("characters", .list (s.cast.map CastMember.toValue))]

/-- The scene in the fields of a record. -/
def ofFields (v : Value) : Checked Scene :=
  .both Scene.mk (fieldOr "location" none asOptionalText v)
    (fieldOr "characters" [] (asTuple CastMember.ofValue) v)

/-- The scene that a record describes. -/
def ofValue : Value → Checked Scene
  | .object fields => ofFields (.object fields)
  | _ => .fail .record

def toValue (s : Scene) : Value :=
  objectOf s.fields

end Scene

namespace Command

inductive Kind
  | location
  | cast
  | dialogue
  | action
deriving Repr, DecidableEq

/-- The name of a kind in a record. -/
def Kind.name : Kind → String
  | location => "location"
  | cast => "characters"
  | dialogue => "dialogue"
  | action => "action"

def Kind.ofName? (t : Text) : Option Kind :=
  [location, cast, dialogue, action].find? fun k => k.name.toList = t

def kind : Command → Kind
  | location .. => .location
  | cast .. => .cast
  | dialogue .. => .dialogue
  | action .. => .action

def toValue (c : Command) : Value :=
  objectOf <| ("type", .text c.kind.name.toList) ::
    match c with
    | location place colours => [("location", .text place), ("backgrounds", textsValue colours)]
    | cast members => [("characters", .list (members.map CastMember.toValue))]
    | dialogue speaker text mood scene =>
      [("speaker", .text speaker), ("text", .text text), ("mood", .text mood)] ++ scene.fields
    | action text scene => ("text", .text text) :: scene.fields

/-- The command of a kind whose fields a record holds. -/
def ofFields (k : Kind) (v : Value) : Checked Command :=
  match k with
  | .location =>
    .both location (field "location" asText v) (fieldOr "backgrounds" [] (asTuple asText) v)
  | .cast => (fieldOr "characters" [] (asTuple CastMember.ofValue) v).map cast
  | .dialogue =>
    Checked.apply
      (Checked.apply
        (.both dialogue (field "speaker" asText v) (field "text" asText v))
        (fieldOr "mood" neutral asText v))
      (Scene.ofFields v)
  | .action => .both action (field "text" asText v) (Scene.ofFields v)

/-- The command that a record describes. -/
def ofValue : Value → Checked Command
  | .object fields =>
    let v := Value.object fields
    match v.field? "type".toList with
    | none => .fail .tagMissing
    | some (.text t) =>
      match Kind.ofName? t with
      | none => .fail .tagUnknown
      | some k => (ofFields k v).under k.name.toList
    | some _ => .fail .tagUnknown
  | _ => .fail .tagged

/-- The commands that a list of records describes. -/
def listOfValue : Value → Checked (List Command)
  | .list vs => items ofValue 0 vs
  | _ => .fail .list

/-- Commands as a list of records. -/
def listToValue (cs : List Command) : Value :=
  .list (cs.map toValue)

end Command

end StoryPlayer
