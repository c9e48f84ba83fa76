import StoryPlayer.Json.Standard
import StoryPlayer.Script.Check
import StoryPlayer.Script.Reading
import StoryPlayer.Script.Summary
import StoryPlayer.Service.Body
import StoryPlayer.Service.Resource
import StoryPlayer.Settings.File

/-!
# Answers of the service

The service reads and checks scripts and keeps the settings of the player. It answers one request
after another, and all that it remembers between them is the file of settings.

A request whose body does not have the right shape is refused before anything is done. What cannot
be written as standard JSON makes the answer an internal error, whatever was done.
-/

namespace StoryPlayer.Service

open Json Schema

structure Request where
  method : Text
  target : Wire.Url
  body : List UInt8
deriving Repr, DecidableEq

/-- The body of an answer. -/
inductive Content
  | json (v : Value)
  | plain (t : Text)

structure Reply where
  status : Nat
  content : Content

namespace Reply

/-- An answer without a body. -/
def bare (status : Nat) : Reply :=
  ⟨status, .plain []⟩

/-- The answer when something went wrong that is not the fault of the request. -/
def internalError : Reply :=
  ⟨500, .plain "Internal Server Error".toList⟩

/-- An answer that holds a value. -/
def json (status : Nat) (v : Value) : Reply :=
  if v.isStandard then ⟨status, .json v⟩ else internalError

/-- An answer that says why there is no other. -/
def detail (status : Nat) (reason : Value) : Reply :=
  json status (objectOf [("detail", reason)])

/-- The answer to a request whose body has a fault. -/
def ofFault (f : BodyFault) : Reply :=
  detail f.status f.detail

end Reply

/-- The answer with what is read from a script. -/
def readingReply (script : Text) : Reply :=
  let r := readScript script Scene.empty
  .json 200 (objectOf [("commands", Command.listToValue r.commands),
    ("transition_points", textsValue r.offered),
    ("statistics", (Summary.ofCommands r.commands).toValue)])

/-- The answer to what a script is to be used for. -/
def scriptReply (use : Text → Reply) (body : List UInt8) : Reply :=
  match bodyScript body with
  | .ok script => use script
  | .error f => .ofFault f

/-- The answer with the settings. -/
def settingsReply (f : SettingsFile) : Reply :=
  match f.get with
  | .ok s => .json 200 s.toValue
  | .error _ => .internalError

/-- Changes the settings. Changes that do not pass are refused with the wording of the first
complaint. -/
def change (f : SettingsFile) (changes : Value) : SettingsFile × Reply :=
  match f.update changes with
  | .ok (f, s) => (f, .json 200 s.toValue)
  | .error (.invalid (c :: _)) =>
    (f, .detail 400 (.text ("Invalid settings: ".toList ++ c.fault.message.toList)))
  | .error _ => (f, .internalError)

/-- Answers a request for a resource; there is no answer to a method that it does not know. What
stands on a page is left open. -/
def serve? (f : SettingsFile) (method : String) (body : List UInt8) :
    Resource → Option (SettingsFile × Reply)
  | .health =>
    if method = "GET" then some (f, .json 200 (objectOf [("status", .text "healthy".toList)]))
    else none
  | .parsing => if method = "POST" then some (f, scriptReply readingReply body) else none
  | .checking =>
    if method = "POST" then
      some (f, scriptReply (fun script => .json 200 (checkScript script).toValue) body)
    else none
  | .settings =>
    if method = "GET" then some (f, settingsReply f)
    else if method = "PATCH" then
      some (match bodyRecord body with
        | .ok changes => change f changes
        | .error e => (f, .ofFault e))
    else none
  | .page _ => if method = "GET" ∨ method = "HEAD" then some (f, .bare 200) else none

/-- Answers a request: the file of settings behind it and the answer. A request for the head of an
answer gets no body. -/
def answer (f : SettingsFile) (r : Request) : SettingsFile × Reply :=
  let method := String.ofList (r.method.map Char.toUpper)
  let (f, reply) :=
    match Route.ofUrl r.target with
    | .found resource =>
      (serve? f method r.body resource).getD
        (f, .detail 405 (.text "Method Not Allowed".toList))
    | .elsewhere => (f, .bare 307)
    | .nowhere => (f, .detail 404 (.text "Not Found".toList))
  (f, if method = "HEAD" then { reply with content := .plain [] } else reply)

/-- Answers requests one after another. -/
def answers (f : SettingsFile) : List Request → List Reply
  | [] => []
  | r :: rs =>
    let (f, reply) := answer f r
    reply :: answers f rs

end StoryPlayer.Service
