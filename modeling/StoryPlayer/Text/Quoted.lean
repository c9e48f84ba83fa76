import StoryPlayer.Text.Printable
import StoryPlayer.Text.Surrogate

/-!
# Quoted text

A quoted text stands between single quotes, or between double quotes when it holds a single quote
and no double one. The backslash, the quote that encloses the text and the three common controls are
escaped by a letter, and any other character that is not printable by its code in two, four or eight
hexadecimal digits. Half of a surrogate pair has a code as well.
-/

namespace StoryPlayer.Text

/-- The quote that encloses a text. -/
def enclosing (t : Text) : Char :=
  if '\'' ∈ t ∧ '"' ∉ t then '"' else '\''

/-- A character by its code, in two, four or eight hexadecimal digits. -/
def codeEscape (c : Char) : Text :=
  let n := codeOf c
  if n < 0x100 then '\\' :: 'x' :: hex 2 n
  else if n < 0x10000 then '\\' :: 'u' :: hex 4 n
  else '\\' :: 'U' :: hex 8 n

/-- A character as it stands between two quotes `q`. -/
def quotedChar (q c : Char) : Text :=
  if c = q ∨ c = '\\' then ['\\', c]
  else if c = '\n' then ['\\', 'n']
  else if c = '\r' then ['\\', 'r']
  else if c = '\t' then ['\\', 't']
  else if isPrintable c then [c]
  else codeEscape c

/-- A text between its quotes. -/
def quoted (t : Text) : Text :=
  let q := enclosing t
  q :: t.flatMap (quotedChar q) ++ [q]

end StoryPlayer.Text
