import StoryPlayer.Json.Reader
import StoryPlayer.Script.Record
import StoryPlayer.Wire.Layout

/-!
# Bodies of requests

A body is JSON of the shape that a resource wants. What is wrong with a body is found before
anything is done: that there is none, that it cannot be read at all, that it is no JSON, or that a
part of it has a fault.
-/

namespace StoryPlayer.Service

open Json Schema

/-- What is wrong with a body. -/
inductive BodyFault
  /-- It cannot be decoded, or runs into a limit of the reader. -/
  | undecodable
  /-- It is no JSON; where and why. -/
  | malformed (position : Nat) (cause : Cause)
  /-- The part at the end of this path has a fault. -/
  | unfit (fault : Schema.Fault) (path : List String) (input : Value)

/-- The status of the answer to a body with a fault. -/
def BodyFault.status : BodyFault → Nat
  | undecodable => 400
  | _ => 422

/-- What an answer says about a fault. -/
def BodyFault.detail : BodyFault → Value
  | undecodable => .text "There was an error parsing the body".toList
  | malformed position cause => .list [objectOf [("type", .text "json_invalid".toList),
      ("loc", .list [.text "body".toList, .int position]),
      ("msg", .text "JSON decode error".toList), ("input", .object []),
      ("ctx", objectOf [("error", .text cause.message.toList)])]]
  | unfit fault path input => .list [objectOf [("type", .text fault.code.toList),
      ("loc", textsValue (path.map String.toList)),
      ("msg", .text fault.message.toList), ("input", input)]]

/-- The value in a body, which must be there. -/
def bodyValue (body : List UInt8) : Except BodyFault Value :=
  if body = [] then .error (.unfit .missing ["body"] .null)
  else
    match Wire.jsonText? body with
    | none => .error .undecodable
    | some t =>
      match readWhole t with
      | .ok v => .ok v
      | .error (.malformed cause left) => .error (.malformed (position t left) cause)
      | .error (.beyond _) => .error .undecodable

/-- The script in a body. -/
def bodyScript (body : List UInt8) : Except BodyFault Text := do
  let v ← bodyValue body
  match v with
  | .object fields =>
    match lookup "script".toList fields with
    | some (.text t) => .ok t
    | some other => .error (.unfit .text ["body", "script"] other)
    | none => .error (.unfit .missing ["body", "script"] v)
  | _ => .error (.unfit .tagged ["body"] v)

/-- The record of changes in a body. -/
def bodyRecord (body : List UInt8) : Except BodyFault Value := do
  let v ← bodyValue body
  match v with
  | .object _ => .ok v
  | _ => .error (.unfit .map ["body"] v)

end StoryPlayer.Service
