import StoryPlayer.Text.Digit
import StoryPlayer.Wire.Host

/-!
# Addresses

An address is cut into its parts, and every part is brought into one form: the scheme and the host
in lower case, a port that the scheme has anyway left out, points in the path resolved, and all
other characters than those of ASCII written as octets.

An address without a scheme or without a host is relative: it names a place on a server that is
known otherwise.
-/

namespace StoryPlayer.Wire

/-- An address by its parts, in the form in which they are written. -/
structure Url where
  scheme : Text
  userinfo : Text
  host : Text
  port : Option Int
  path : Text
  query : Option Text
  fragment : Option Text
deriving Repr, DecidableEq

/-- Why a text is no address. -/
inductive UrlFault
  | tooLong
  | control (c : Char) (position : Nat)
  | host (fault : HostFault) (given : Text)
  | port (given : Text)
  /-- Behind a host the path does not begin with a slash. -/
  | unrooted
  /-- A path that stands alone begins with two slashes. -/
  | twoSlashes
  /-- A path that stands alone begins with a colon. -/
  | colon
deriving Repr, DecidableEq

def UrlFault.message : UrlFault → Text
  | tooLong => "URL too long".toList
  | control c position =>
    "Invalid non-printable ASCII character in URL, ".toList ++ Text.quoted [c] ++
      " at position ".toList ++ Text.ofNat position ++ ['.']
  | host .address4 given => "Invalid IPv4 address: ".toList ++ Text.quoted given
  | host .address6 given => "Invalid IPv6 address: ".toList ++ Text.quoted given
  | host .name given => "Invalid IDNA hostname: ".toList ++ Text.quoted given
  | port given => "Invalid port: ".toList ++ Text.quoted given
  | unrooted => "For absolute URLs, path must be empty or begin with '/'".toList
  | twoSlashes => "Relative URLs cannot have a path starting with '//'".toList
  | colon => "Relative URLs cannot have a path starting with ':'".toList

namespace Url

/-! ## The parts of an address -/

/-- The scheme in front of the first colon and what follows the colon. What cannot be a scheme is
none, and then nothing is left out. -/
def cutScheme (t : Text) : Text × Text :=
  let isInner := fun c : Char => c.isAlphanum || c = '+' || c = '.' || c = '-'
  let scheme := if (t.head?.map Char.isAlpha).getD false then t.takeWhile isInner else []
  match t.drop scheme.length with
  | ':' :: rest => (scheme, rest)
  | _ => ([], t)

/-- What stands between two slashes and the path, and what follows it. -/
def cutAuthority : Text → Text × Text
  | '/' :: '/' :: rest =>
    let isInner := fun c : Char => c != '/' && c != '?' && c != '#'
    (rest.takeWhile isInner, rest.dropWhile isInner)
  | rest => ([], rest)

/-- What stands in front of the last at sign, and what follows it. -/
def cutUserinfo (t : Text) : Text × Text :=
  if '@' ∈ t then
    let behind := t.reverse.takeWhile (· != '@')
    (t.take (t.length - behind.length - 1), behind.reverse)
  else ([], t)

/-- A host, between brackets or up to a colon, and what follows it. -/
def cutHost (t : Text) : Text × Text :=
  if t.head? = some '[' ∧ ']' ∈ t then
    let behind := t.reverse.takeWhile (· != ']')
    (t.take (t.length - behind.length), behind.reverse)
  else (Text.before ':' t, t.dropWhile (· != ':'))

/-- The port that a scheme has by itself. -/
def defaultPort? (scheme : Text) : Option Int :=
  ([("ftp", 21), ("http", 80), ("https", 443), ("ws", 80), ("wss", 443)].find? fun p =>
    p.1.toList = scheme).map (·.2)

/-- The port behind a host, without the colon that may stand in front. The one that the scheme has
by itself is none. -/
def portOf (scheme t : Text) : Except UrlFault (Option Int) :=
  let given := (Text.after? [':'] t).getD t
  if given = [] then .ok none
  else
    match Text.toInt? 4300 given with
    | none => .error (.port given)
    | some n => .ok (if defaultPort? scheme = some n then none else some n)

/-- The parts of a path that are left behind one more part. One point stays where it is and two
points lead up. -/
def walk (parts : List Text) (part : Text) : List Text :=
  if part = ['.'] then parts
  else if part = ['.', '.'] then if parts = [[]] then parts else parts.dropLast
  else parts ++ [part]

/-- A path in which points are resolved. -/
def withoutPoints (path : Text) : Text :=
  Text.join ['/'] ((Text.pieces '/' path).foldl walk [])

/-! ## Characters that stand for themselves -/

/-- Whether a character may stand for itself in a fragment. -/
def isFragmentSafe (c : Char) : Bool :=
  0x20 < c.toNat && c.toNat < 0x7F && c != '"' && c != '<' && c != '>' && c != '\u0060'

/-- Whether a character may stand for itself in a query. -/
def isQuerySafe (c : Char) : Bool :=
  0x20 < c.toNat && c.toNat < 0x7F && c != '"' && c != '<' && c != '>' && c != '#'

/-- Whether a character may stand for itself in a path. -/
def isPathSafe (c : Char) : Bool :=
  isQuerySafe c && c != '?' && c != '\u0060' && c != '\x7b' && c != '\x7d'

/-- Whether a character may stand for itself in front of a host. -/
def isUserSafe (c : Char) : Bool :=
  isPathSafe c && !("/;=@[\\]^|".toList.contains c)

/-! ## Reading -/

/-- The longest text that is read. -/
def maxLength : Nat := 65536

/-- Whether a character is a control of ASCII. -/
def isControl (c : Char) : Bool :=
  c.toNat < 0x20 || c.toNat = 0x7F

/-- The host of a text that names one, if it does. -/
def hostIn (t : Text) : Except UrlFault Text :=
  match hostOf t with
  | .ok host => .ok host
  | .error fault => .error (.host fault t)

/-- Whether a path may follow the parts in front of it. -/
def checkPath (hasScheme hasAuthority : Bool) (path : Text) : Except UrlFault Unit :=
  if hasAuthority then
    if path = [] ∨ path.head? = some '/' then .ok () else .error .unrooted
  else if hasScheme then .ok ()
  else
    match path with
    | '/' :: '/' :: _ => .error .twoSlashes
    | ':' :: _ => .error .colon
    | _ => .ok ()

/-- The address that the parts of a text without controls make. -/
def ofParts (t : Text) : Except UrlFault Url := do
  let (scheme, rest) := cutScheme t
  let (authority, rest) := cutAuthority rest
  let path := rest.takeWhile fun c => c != '?' && c != '#'
  let rest := rest.drop path.length
  let query := (Text.after? ['?'] rest).map (Text.before '#')
  let fragment := Text.behind? '#' rest
  let (userinfo, authority) := cutUserinfo authority
  let (host, port) := cutHost authority
  let userinfo := percentEncode isUserSafe userinfo
  let host ← hostIn host
  let port ← portOf scheme port
  let hasAuthority := userinfo != [] || host != [] || port.isSome
  checkPath (scheme != []) hasAuthority path
  let path := if scheme ≠ [] ∨ hasAuthority then withoutPoints path else path
  return ⟨scheme.map Char.toLower, userinfo, host, port, percentEncode isPathSafe path,
    query.map (percentEncode isQuerySafe), fragment.map (percentEncode isFragmentSafe)⟩

/-- The address that a text is. -/
def parse (t : Text) : Except UrlFault Url :=
  if maxLength < t.length then .error .tooLong
  else
    match t.find? isControl with
    | some c => .error (.control c (t.takeWhile (· != c)).length)
    | none => ofParts t

/-! ## Writing -/

/-- What stands in front of the path of an address and behind its scheme. -/
def authority (u : Url) : Text :=
  (if u.userinfo = [] then [] else u.userinfo ++ ['@']) ++
    (if ':' ∈ u.host then '[' :: u.host ++ [']'] else u.host) ++
    (u.port.map fun n => ':' :: Text.ofInt n).getD []

/-- An address as it is written. -/
def write (u : Url) : Text :=
  (if u.scheme = [] then [] else u.scheme ++ [':']) ++
    (if u.authority = [] then [] else '/' :: '/' :: u.authority) ++ u.path ++
    (u.query.map ('?' :: ·)).getD [] ++ (u.fragment.map ('#' :: ·)).getD []

/-! ## Places -/

/-- Whether an address names its server. -/
def isAbsolute (u : Url) : Bool :=
  u.scheme != [] && u.host != []

/-- A relative address as one from the root of a server that is not named; an absolute one is left
alone. -/
def rooted (u : Url) : Url :=
  if u.isAbsolute then u
  else ⟨[], [], [], none, '/' :: u.path.dropWhile (· == '/'), u.query, none⟩

/-- The path of an address on its server, with points resolved and without octets. -/
def place (u : Url) : Text :=
  match withoutPoints u.rooted.path with
  | [] => ['/']
  | path => percentDecode path

/-- The name and the secret in front of the host, if there are any. -/
def credentials? (u : Url) : Option (Text × Text) :=
  let name := percentDecode (Text.before ':' u.userinfo)
  let secret := percentDecode ((Text.behind? ':' u.userinfo).getD [])
  if name = [] ∧ secret = [] then none else some (name, secret)

end Url

end StoryPlayer.Wire
