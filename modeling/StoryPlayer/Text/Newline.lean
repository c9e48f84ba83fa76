import StoryPlayer.Text.Basic

/-!
# Line breaks of files

Files end their lines in three ways. In a text that was read from a file every one of them is a line
feed.
-/

namespace StoryPlayer.Text

/-- The text with a line feed for every carriage return and for every pair of the two. -/
def withLineFeeds : Text → Text
  | [] => []
  | '\r' :: '\n' :: rest => '\n' :: withLineFeeds rest
  | '\r' :: rest => '\n' :: withLineFeeds rest
  | c :: rest => c :: withLineFeeds rest

end StoryPlayer.Text
