import StoryPlayer.Json.Standard
import StoryPlayer.Script.Record
import StoryPlayer.Wire.Base64
import StoryPlayer.Wire.Body
import StoryPlayer.Wire.ContentType

/-!
# Asking a server for a story

A story is asked for with a request that carries a JSON body and perhaps a key, and comes as an
event stream. What the server does is data here: a refusal to connect, or a status with headers and
a body in pieces, with pauses, that may break off. From this follows the source that the player
reads.

A request goes out only when its address can be read and all of it can be written. The name and the
secret in an address go before a key.
-/

namespace StoryPlayer.Wire

open Json

/-- What goes wrong with a connection. -/
inductive Fault
  | noConnection
  | timeout
  | other (reason : Text)
deriving Repr, DecidableEq

/-- The names of the faults that mean that something took too long. -/
def timeoutNames : List String :=
  ["ConnectTimeout", "ReadTimeout", "WriteTimeout", "PoolTimeout", "TimeoutException"]

/-- The fault that goes by a name. -/
def Fault.named (name reason : Text) : Fault :=
  if name = "ConnectError".toList then .noConnection
  else if name ∈ timeoutNames.map String.toList then .timeout
  else .other reason

/-- One piece of what comes over a connection. -/
inductive Piece
  | octets (bs : List UInt8)
  /-- Nothing comes for this many microseconds. -/
  | pause (micros : Int)
deriving Repr, DecidableEq

/-- The headers of an answer, by name. -/
abbrev Headers := List (Text × Text)

/-- The value of a header, whatever the case of the letters in its name. -/
def Headers.get? (hs : Headers) (name : String) : Option Text :=
  (hs.find? fun h => h.1.map Char.toLower = name.toList).map (·.2)

/-- The first name or value of headers that cannot be sent, which must be in ASCII. -/
def Headers.unencodable? (hs : Headers) : Option Text.Unencodable :=
  (hs.flatMap fun h => [h.1, h.2]).findSome? Text.Encoding.ascii.unencodable?

/-- What a server answers. -/
inductive Answer
  | unconnected (f : Fault)
  | response (status : Int) (headers : Headers) (pieces : List Piece) (broken : Option Fault)
deriving Repr, DecidableEq

/-- A request for a story, as it is made. -/
structure Request where
  url : Text
  body : Value
  key : Text
  timeout : Seconds

/-- A request as it goes out. -/
structure Sent where
  url : Url
  authorization : Option Text
  body : Value

def Sent.toValue (s : Sent) : Value :=
  objectOf [("method", .text "POST".toList), ("url", .text s.url.write),
    ("headers", objectOf [("accept", .text "text/event-stream".toList),
      ("authorization", optionValue s.authorization),
      ("content-type", .text "application/json".toList)]),
    ("body", s.body)]

namespace Request

/-- The seconds that a server has by default. -/
def defaultTimeout : Seconds :=
  .float 120.0

/-- Whether a body counts as none, so that an empty object is sent. -/
def isVoid : Value → Bool
  | .null | .bool false | .list [] | .object [] => true
  | .int n => n = 0
  | .float x => x == 0.0
  | .text t => t = []
  | _ => false

/-- A request; a body that counts as none is an empty object. -/
def new (url : Text) (body : Value) (key : Text) (timeout : Seconds) : Request :=
  ⟨url, if isVoid body then .object [] else body, key, timeout⟩

/-- The authorization that a key gives, when there is one. -/
def bearer? (key : Text) : Option Text :=
  if key = [] then none else some ("Bearer ".toList ++ key)

/-- The authorization that a name and a secret give. -/
def basic (credentials : Text × Text) : Text :=
  "Basic ".toList ++ base64 (encode (credentials.1 ++ ':' :: credentials.2))

/-- A request as it goes out. An address that does not name its server counts from its root. -/
def send (r : Request) : Except Failure Sent :=
  match Url.parse r.url with
  | .error fault => .error (.badAddress fault)
  | .ok url =>
    match (bearer? r.key).bind Text.Encoding.ascii.unencodable? with
    | some u => .error (.unencodable u)
    | none =>
      if r.body.isFinite then
        let url := url.rooted
        .ok ⟨url, (url.credentials?.map basic) <|> bearer? r.key, r.body⟩
      else .error .unbounded

/-- The failure that a fault is for this request. -/
def failure (r : Request) : Fault → Failure
  | .noConnection => .unreachable r.url
  | .timeout => .unanswered r.timeout
  | .other reason => .broken reason

end Request

/-- What is wrong with the place to which an answer sends on, if it sends on. -/
def redirectFault? (status : Int) (headers : Headers) : Option Failure :=
  if status ∈ [301, 302, 303, 307, 308] then
    match (headers.get? "location").map Url.parse with
    | some (.error fault) =>
      some (.broken ("Invalid URL in location header: ".toList ++ fault.message ++ ['.']))
    | some (.ok url) =>
      if url.scheme ≠ [] ∧ url.host = [] ∧ url.path ≠ [] ∧ url.path.head? ≠ some '/' then
        some (.badAddress .unrooted)
      else none
    | none => none
  else none

/-- What the pieces of a body bring and after which pauses, with the body and the pauses that are
left behind. -/
def comings (b : Body) (pauses : List Int) :
    List Piece → List (List Int × Frame.Outcome) × Body × List Int
  | [] => ([], b, pauses)
  | .pause micros :: rest => comings b (pauses ++ [micros]) rest
  | .octets bs :: rest =>
    match b.take bs with
    | (b, []) => comings b pauses rest
    | (b, o :: os) =>
      let (more, b, left) := comings b [] rest
      ((pauses, o) :: os.map (([], ·)) ++ more, b, left)

/-- The source that a body gives in pieces and with pauses. One that breaks off brings the frames
that had ended, and one that ends also its last. -/
def sourceOfBody (charset : Charset) (pieces : List Piece) (broken : Option Failure) : Source :=
  let (came, body, pauses) := comings (.new charset) [] pieces
  match broken with
  | some f => .ofFrames came pauses (.fail f)
  | none =>
    match body.close with
    | [] => .ofFrames came pauses .stop
    | last :: rest => .ofFrames (came ++ (pauses, last) :: rest.map (([], ·))) [] .stop

/-- The source that an answer to a request gives that went out. Only a status from 200 to 299 brings
a body. -/
def sourceOfAnswer (r : Request) (s : Sent) : Answer → Source
  | .unconnected f => .failing (r.failure f)
  | .response status headers pieces broken =>
    match headers.unencodable? with
    | some u => .failing (.unencodable u)
    | none =>
      if !s.url.isAbsolute then .failing (.unknownServer s.url.write)
      else if 200 ≤ status ∧ status < 300 then
        sourceOfBody (.ofContentType ((headers.get? "content-type").getD [])) pieces
          (broken.map r.failure)
      else .failing ((redirectFault? status headers).getD (.refused status))

/-- The source that a request gives to which a server answers so. -/
def sourceOf (r : Request) (a : Answer) : Source :=
  match r.send with
  | .error f => .failing f
  | .ok s => sourceOfAnswer r s a

end StoryPlayer.Wire
