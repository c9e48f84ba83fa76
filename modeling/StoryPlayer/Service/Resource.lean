import StoryPlayer.Wire.Url

/-!
# Resources of the service

Everything that the service can be asked for has a path of its own, behind which a line feed may
stand. A path with slashes behind it that would be right without them is sent on to the right one.
-/

namespace StoryPlayer.Service

/-- What the service can be asked for. -/
inductive Resource
  | health
  | parsing
  | checking
  | settings
  /-- A page that says how the service is used. -/
  | page (path : String)
deriving Repr, DecidableEq

namespace Resource

def path : Resource → String
  | health => "/api/health"
  | parsing => "/api/script/parse"
  | checking => "/api/script/validate"
  | settings => "/api/settings"
  | page path => path

def all : List Resource :=
  [health, parsing, checking, settings, page "/openapi.json", page "/docs",
    page "/docs/oauth2-redirect", page "/redoc"]

/-- The resource under a path. -/
def at? (place : Text) : Option Resource :=
  all.find? fun r => place = r.path.toList || place = r.path.toList ++ ['\n']

end Resource

/-- What is under a path. -/
inductive Route
  | found (r : Resource)
  /-- The path has slashes behind it that it should not have. -/
  | elsewhere
  | nowhere
deriving Repr, DecidableEq

/-- What is under a path. -/
def Route.of (place : Text) : Route :=
  match Resource.at? place with
  | some r => .found r
  | none =>
    if place.getLast? = some '/' ∧ (Resource.at? (Text.dropEndWhile (· == '/') place)).isSome then
      .elsewhere
    else .nowhere

/-- What an address leads to. Octets are read where an address is taken apart and once more here. -/
def Route.ofUrl (u : Wire.Url) : Route :=
  .of (Wire.percentDecode u.place)

end StoryPlayer.Service
