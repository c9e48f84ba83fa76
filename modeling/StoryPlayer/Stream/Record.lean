import StoryPlayer.Schema.Field

/-!
# Records of a stream

A story that streams in comes as records. The text of a chunk adds to what came before; the text of
a setup or done record is cumulative; the text of an error says why the stream failed.
-/

namespace StoryPlayer

open Json Schema

inductive RecordKind
  | setupReady
  | chunk
  | done
  | error
deriving Repr, DecidableEq

def RecordKind.name : RecordKind → String
  | setupReady => "setup_ready"
  | chunk => "chunk"
  | done => "done"
  | error => "error"

def RecordKind.ofName? (t : Text) : Option RecordKind :=
  [setupReady, chunk, done, error].find? fun k => k.name.toList = t

/-- One record of a stream. -/
structure StreamRecord where
  kind : RecordKind
  text : Text
deriving Repr, DecidableEq

namespace StreamRecord

/-- The kind that a value names. -/
def kindOfValue : Value → Checked RecordKind
  | .text t =>
    match RecordKind.ofName? t with
    | some k => .ok k
    | none => .fail .choice
  | _ => .fail .choice

/-- The stream record that a JSON record describes. -/
def ofValue (v : Value) : Checked StreamRecord :=
  .both StreamRecord.mk (field "type" kindOfValue v) (fieldOr "text" [] asText v)

/-- A stream record as a JSON record. -/
def toValue (r : StreamRecord) : Value :=
  .object [("type".toList, .text r.kind.name.toList), ("text".toList, .text r.text)]

end StreamRecord

end StoryPlayer
