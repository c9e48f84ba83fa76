import StoryPlayer.Json.Reader
import StoryPlayer.Schema.Fault
import StoryPlayer.Stream.Seconds
import StoryPlayer.Text.Encoding
import StoryPlayer.Wire.Url

/-!
# How a stream fails

A stream fails by itself, by its connection or by its deadline, or it cannot even be asked for. Each
way is a cause of its own, and its wording is in one place.
-/

namespace StoryPlayer

/-- Why a stream, or a call on one, came to nothing. -/
inductive Failure
  /-- The stream sent an error record. -/
  | reported (reason : Text)
  /-- The stream ended without a done record. -/
  | endedEarly
  | overdue (timeout : Seconds)
  /-- It was to be asked for under what is no address. -/
  | badAddress (fault : Wire.UrlFault)
  /-- It was to be asked for with a key that cannot be encoded. -/
  | unencodable (u : Text.Unencodable)
  /-- It was to be asked for with a number that is not finite. -/
  | unbounded
  /-- The address that was asked does not name its server. -/
  | unknownServer (url : Text)
  | unreachable (url : Text)
  /-- The server refused with a status. -/
  | refused (status : Int)
  | unanswered (timeout : Seconds)
  | broken (reason : Text)
  /-- What the stream sent runs into a limit of its reader. -/
  | unreadable (limit : Json.Limit)
  /-- A record is not one of a stream. -/
  | badRecord (complaints : List Schema.Complaint)
  /-- The source itself gave up. -/
  | source (reason : Text)
  /-- A script cannot be cut into chunks of no size. -/
  | chunkSize
  /-- The time that the stream has is past all counting. -/
  | uncountable

/-- Whether a failure is one of the stream itself, which a story that is played outlives. -/
def Failure.isOfStream : Failure → Bool
  | reported _ | endedEarly | overdue _ => true
  | unreachable _ | refused _ | unanswered _ | broken _ => true
  | _ => false

def Failure.message : Failure → Text
  | reported reason => if reason = [] then "Story stream failed".toList else reason
  | endedEarly => "Stream ended without a done record".toList
  | overdue timeout =>
    "Stream did not finish within ".toList ++ timeout.write ++ ['s']
  | badAddress fault => fault.message
  | unencodable u => u.message
  | unbounded => "Out of range float values are not JSON compliant".toList
  | unknownServer url => "unknown url type: ".toList ++ Text.quoted url
  | unreachable url => "Cannot connect to story stream at ".toList ++ url
  | refused status => "Story stream returned HTTP ".toList ++ Text.ofInt status
  | unanswered timeout => "Story stream timed out after ".toList ++ timeout.write ++ ['s']
  | broken reason => "Story stream failed: ".toList ++ reason
  | unreadable limit => limit.message
  | badRecord complaints => Schema.describe complaints
  | source reason => reason
  | chunkSize => "chunk_size must be at least 1".toList
  | uncountable => "int too large to convert to float".toList

end StoryPlayer
