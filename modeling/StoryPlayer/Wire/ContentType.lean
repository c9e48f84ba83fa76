import StoryPlayer.Wire.Host

/-!
# Content types

A content type is a list of parameters between semicolons, of which the one for the charset says how
octets stand for characters. A value may stand between quotes, and then a semicolon in it belongs to
it; it may be given in numbered sections; and it may be written as octets, behind its own charset
and language. A charset goes by many names, in which only letters, digits and their grouping count.
-/

namespace StoryPlayer.Wire

/-- A parameter of a content type. -/
structure Parameter where
  name : Text
  value : Text
deriving Repr, DecidableEq

namespace Parameter

/-- The pieces of a content type: a semicolon ends one, unless it stands between quotes. A quote
behind a backslash is none. -/
def cut (isOpen escaped : Bool) : Text → List Text
  | [] => [[]]
  | c :: rest =>
    if c = ';' && !isOpen then [] :: cut false false rest
    else
      match cut (if c = '"' && !escaped then !isOpen else isOpen) (c = '\\') rest with
      | [] => [[c]]
      | piece :: more => (c :: piece) :: more

/-- The parameter of a piece. Without an equals sign all of it is the name. -/
def ofPiece (piece : Text) : Parameter :=
  let name := Text.trim (Text.before '=' piece)
  ⟨name.map Char.toLower, Text.trim ((Text.behind? '=' piece).getD [])⟩

/-- A text between quotes with backslashes in front of quotes and backslashes taken away. -/
def unescaped : Text → Text
  | '\\' :: '\\' :: rest => '\\' :: unescaped rest
  | '\\' :: '"' :: rest => '"' :: unescaped rest
  | c :: rest => c :: unescaped rest
  | [] => []

/-- A value without the quotes or the angle brackets around it. -/
def unquoted (t : Text) : Text :=
  match t, t.tail.getLast? with
  | '"' :: rest, some '"' => unescaped rest.dropLast
  | '<' :: rest, some '>' => rest.dropLast
  | _, _ => t

/-! ## Values in sections -/

/-- A section of a value: its number, unless the value is whole, and whether it is written as
octets. -/
structure Section where
  number : Option Nat
  value : Text
  encoded : Bool

/-- Whether a character may stand in the name of a value in sections. -/
def isNameInner (c : Char) : Bool :=
  c.isAlphanum || c = '_'

/-- The number of a section behind the star in a name, where another star may follow. -/
def sectionNumber? (t : Text) : Option (Option Nat) :=
  let digits := t.takeWhile Char.isDigit
  match digits, t.dropWhile Char.isDigit with
  | [], [] => some none
  | _ :: _, [] | _ :: _, ['*'] =>
    some (some (Text.natOfDigits digits))
  | _, _ => none

/-- The section that a parameter is, and the name of its value. A star in the name tells it. -/
def section? (p : Parameter) : Option (Text × Section) :=
  let name := p.name.takeWhile isNameInner
  match name, p.name.dropWhile isNameInner with
  | _ :: _, '*' :: behind =>
    (sectionNumber? behind).map fun number =>
      (name, ⟨number, unquoted p.value, p.name.getLast? = some '*'⟩)
  | _, _ => none

/-- Whether a section comes before another one: by its number, and where the numbers are the same by
its value. -/
def Section.precedes (a b : Section) : Bool :=
  let m := a.number.getD 0
  let n := b.number.getD 0
  m < n || m = n && !b.value.lex a.value fun c d => c < d

/-- The characters of octets in a section, each octet the code of its character. -/
def Section.text (s : Section) : Text :=
  if s.encoded then (decode .latin1 none (percentOctets s.value)).1 else s.value

/-- A value without the charset and the language in front of it, when it has both. -/
def behindLanguage (t : Text) : Text :=
  ((Text.behind? '\'' t).bind (Text.behind? '\'')).getD t

/-- The value that sections make in the order of their numbers. -/
def ofSections (ss : List Section) : Text :=
  let t := (ss.mergeSort Section.precedes).flatMap Section.text
  if ss.any (·.encoded) then behindLanguage t else t

/-- The value of the parameter of that name, which may be in sections. The first parameter of a
content type is never a section, and a whole value goes before one in sections. -/
def value? (name : Text) : List Parameter → Option Text
  | [] => none
  | first :: rest =>
    match (first :: rest.filter fun p => (section? p).isNone).find? fun p => p.name = name with
    | some p => some (unquoted p.value)
    | none =>
      match (rest.filterMap section?).filter fun s => s.1 = name with
      | [] => none
      | ss => some (ofSections (ss.map (·.2)))

end Parameter

/-! ## Names of charsets -/

/-- A name with its letters in lower case and one underscore for whatever stands between its
letters, digits and points. -/
def plainName (t : Text) : Text :=
  let isInner := fun c : Char => c.isAlphanum || c = '.'
  let parts := Text.pieces '_' (t.map fun c => if isInner c then c.toLower else '_')
  Text.join ['_'] (parts.filter (· != []))

/-- The names of the charset of single octets. -/
def latin1Names : List Text :=
  ["8859", "cp819", "csisolatin1", "ibm819", "iso8859", "iso8859_1", "iso_8859_1",
    "iso_8859_1_1987", "iso_ir_100", "l1", "latin", "latin1"].map String.toList

/-- The charset of that name; any but the one of single octets means UTF-8. A point counts as an
underscore, but not in the name that is written with one. -/
def Charset.ofName (t : Text) : Charset :=
  let name := plainName t
  if name = "latin_1".toList ∨ (name.map fun c => if c = '.' then '_' else c) ∈ latin1Names then
    .latin1
  else .utf8

/-- The charset of a content type. -/
def Charset.ofContentType (t : Text) : Charset :=
  match Parameter.value? "charset".toList ((Parameter.cut false false t).map Parameter.ofPiece) with
  | some name => if isAscii name then .ofName name else .utf8
  | none => .utf8

end StoryPlayer.Wire
