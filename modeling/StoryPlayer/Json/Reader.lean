import StoryPlayer.Json.Value
import StoryPlayer.Decimal.Basic
import StoryPlayer.Text.Surrogate

/-!
# Reading JSON

The reader takes the standard grammar and the names of the three numbers that are not finite. It
stops at the first fault, which it names together with the text that stood there, so that its
position is the length of the input less the length of what was left.

Blanks are the space, the tab and the two line breaks. A name that an object gives twice has the
last value. Half of a surrogate pair without its other half is kept as such.

Two limits bound what is read: the digits of an integer and the depth of lists and objects in one
another. A text that runs into one of them is given up, be it JSON or not, and that is a fault of
another kind than a text that is no JSON.
-/

namespace StoryPlayer.Json

/-- Why a text is no JSON value. -/
inductive Cause
  | value
  | name
  | colon
  | comma
  | extra
  | openText
  | control
  | escape
  | codeEscape
  | byteOrderMark
deriving Repr, DecidableEq

def Cause.message : Cause → String
  | value => "Expecting value"
  | name => "Expecting property name enclosed in double quotes"
  | colon => "Expecting ':' delimiter"
  | comma => "Expecting ',' delimiter"
  | extra => "Extra data"
  | openText => "Unterminated string starting at"
  | control => "Invalid control character at"
  | escape => "Invalid \\escape"
  | codeEscape => "Invalid \\uXXXX escape"
  | byteOrderMark => "Unexpected UTF-8 BOM (decode using utf-8-sig)"

/-- A limit that a text runs into. -/
inductive Limit
  /-- An integer has this many digits. -/
  | digits (count : Nat)
  /-- A list, or else an object, lies too deep in others. -/
  | depth (isList : Bool)
deriving Repr, DecidableEq

namespace Limit

/-- The digits that an integer may have. -/
def maxDigits : Nat :=
  4300

/-- The lists and objects that may lie in one another. Each of them is read by a call within that of
the one around it, and calls may be nested a thousand deep. Those that are under way already where a
text is read count as well; there are taken to be forty. -/
def maxDepth : Nat :=
  960

def message : Limit → Text
  | digits count =>
    "Exceeds the limit (".toList ++ Text.ofNat maxDigits ++
      " digits) for integer string conversion: value has ".toList ++ Text.ofNat count ++
      " digits; use sys.set_int_max_str_digits() to increase the limit".toList
  | depth isList =>
    "maximum recursion depth exceeded while decoding a JSON ".toList ++
      (if isList then "array" else "object").toList ++ " from a unicode string".toList

end Limit

/-- Why a text was not read. -/
inductive Fault
  /-- It is no JSON value for this cause, which was met where this much was left. -/
  | malformed (cause : Cause) (left : Text)
  /-- It runs into a limit. -/
  | beyond (limit : Limit)
deriving Repr, DecidableEq

/-- A result and the text behind it, or the first fault. -/
abbrev Read (α : Type) := Except Fault (α × Text)

/-- Whether a character separates tokens. -/
def isSpace (c : Char) : Bool :=
  c = ' ' || c = '\t' || c = '\n' || c = '\r'

/-- Drops the blanks in front of the next token. -/
def skip (t : Text) : Text :=
  t.dropWhile isSpace

/-! ## Texts -/

/-- The value of four hexadecimal digits. -/
def hexCode? (a b c d : Char) : Option Nat := do
  let a ← Text.hexDigit? a
  let b ← Text.hexDigit? b
  let c ← Text.hexDigit? c
  let d ← Text.hexDigit? d
  pure (((a * 16 + b) * 16 + c) * 16 + d)

/-- The character that a letter behind a backslash stands for. -/
def unletter? : Char → Option Char
  | '"' => some '"'
  | '\\' => some '\\'
  | '/' => some '/'
  | 'b' => some '\x08'
  | 'f' => some '\x0c'
  | 'n' => some '\n'
  | 'r' => some '\r'
  | 't' => some '\t'
  | _ => none

/-- Puts a character in front of what is read behind it. -/
def Read.cons (c : Char) : Read Text → Read Text
  | .ok (t, rest) => .ok (c :: t, rest)
  | .error e => .error e

/-- The rest of a text up to its closing quote; `opening` starts at the opening one. -/
def readText (opening : Text) : Text → Read Text
  | [] => .error (.malformed .openText opening)
  | '"' :: rest => .ok ([], rest)
  | '\\' :: 'u' :: a :: b :: c :: d :: '\\' :: 'u' :: e :: f :: g :: h :: next :: rest =>
    match hexCode? a b c d with
    | none =>
      .error (.malformed .codeEscape
        ('u' :: a :: b :: c :: d :: '\\' :: 'u' :: e :: f :: g :: h :: next :: rest))
    | some high =>
      if Text.isHighHalf high then
        match hexCode? e f g h with
        | none => .error (.malformed .codeEscape ('u' :: e :: f :: g :: h :: next :: rest))
        | some low =>
          if Text.isLowHalf low then
            (readText opening (next :: rest)).cons (Text.ofPair high low)
          else
            (readText opening ('\\' :: 'u' :: e :: f :: g :: h :: next :: rest)).cons
              (Text.ofCode high)
      else
        (readText opening ('\\' :: 'u' :: e :: f :: g :: h :: next :: rest)).cons
          (Text.ofCode high)
  | '\\' :: 'u' :: a :: b :: c :: d :: next :: rest =>
    match hexCode? a b c d with
    | none => .error (.malformed .codeEscape ('u' :: a :: b :: c :: d :: next :: rest))
    | some code => (readText opening (next :: rest)).cons (Text.ofCode code)
  | '\\' :: 'u' :: rest => .error (.malformed .codeEscape ('u' :: rest))
  | '\\' :: e :: rest =>
    match unletter? e with
    | some c => (readText opening rest).cons c
    | none => .error (.malformed .escape ('\\' :: e :: rest))
  | ['\\'] => .error (.malformed .openText opening)
  | c :: rest =>
    if c.toNat < 0x20 then .error (.malformed .control (c :: rest))
    else (readText opening rest).cons c

/-! ## Numbers -/

/-- Whether a character is a decimal digit of ASCII. -/
def isDigit (c : Char) : Bool :=
  '0' ≤ c && c ≤ '9'

/-- The digits of the fraction that `t` starts with, and the rest. -/
def fraction? (t : Text) : Option (Text × Text) :=
  match t with
  | '.' :: rest =>
    match rest.takeWhile isDigit with
    | [] => none
    | ds => some (ds, rest.dropWhile isDigit)
  | _ => none

/-- The exponent that `t` starts with, and the rest. -/
def exponent? (t : Text) : Option (Int × Text) :=
  match t with
  | e :: rest =>
    if e = 'e' ∨ e = 'E' then
      let (negative, ds) : Bool × Text :=
        match rest with
        | '-' :: more => (true, more)
        | '+' :: more => (false, more)
        | more => (false, more)
      match ds.takeWhile isDigit with
      | [] => none
      | digits =>
        let n : Int := Text.natOfDigits digits
        some (if negative then -n else n, ds.dropWhile isDigit)
    else none
  | [] => none

/-- The floating-point number of that sign and size. -/
def signed (negative : Bool) (d : Decimal) : Float :=
  if negative then -d.toFloat else d.toFloat

/-- The integer of that sign and these digits, unless there are too many of them. -/
def integer (negative : Bool) (digits : Text) : Except Fault Value :=
  if Limit.maxDigits < digits.length then .error (.beyond (.digits digits.length))
  else
    let n : Int := Text.natOfDigits digits
    .ok (.int (if negative then -n else n))

/-- The digits in front of any fraction that `t` starts with, and the rest. A zero in front stands
alone. -/
def whole? (t : Text) : Option (Text × Text) :=
  match t with
  | '0' :: rest => some (['0'], rest)
  | _ =>
    match t.takeWhile isDigit with
    | [] => none
    | ds => some (ds, t.dropWhile isDigit)

/-- A number without its sign that starts `t`, and the rest. A fraction or an exponent makes it a
floating-point number. -/
def number? (negative : Bool) (t : Text) : Option (Except Fault Value × Text) :=
  (whole? t).map fun (ds, rest) =>
    let (frac, rest₁) := (fraction? rest).getD ([], rest)
    match exponent? rest₁ with
    | some (e, rest₂) =>
      (.ok (.float (signed negative ⟨Text.natOfDigits (ds ++ frac), e - frac.length⟩)), rest₂)
    | none =>
      if frac = [] then (integer negative ds, rest₁)
      else (.ok (.float (signed negative ⟨Text.natOfDigits (ds ++ frac), -frac.length⟩)), rest₁)

/-- A value that is one of the six names, and the rest. -/
def named? (t : Text) : Option (Value × Text) :=
  let named := fun (name : List Char) (v : Value) => (Text.after? name t).map fun rest => (v, rest)
  named ['n', 'u', 'l', 'l'] .null
    <|> named ['t', 'r', 'u', 'e'] (.bool true)
    <|> named ['f', 'a', 'l', 's', 'e'] (.bool false)
    <|> named ['N', 'a', 'N'] (.float (0.0 / 0.0))
    <|> named ['I', 'n', 'f', 'i', 'n', 'i', 't', 'y'] (.float (1.0 / 0.0))
    <|> named ['-', 'I', 'n', 'f', 'i', 'n', 'i', 't', 'y'] (.float (-1.0 / 0.0))

/-- A value that is no text, list or object. -/
def scalar (t : Text) : Read Value :=
  match named? t with
  | some found => .ok found
  | none =>
    let number :=
      match t with
      | '-' :: rest => number? true rest
      | _ => number? false t
    match number with
    | some (v, rest) => v.map fun v => (v, rest)
    | none => .error (.malformed .value t)

/-! ## Lists and objects -/

mutual

/-- The value that `t` starts with, where lists and objects may lie `depth` deep in one another.
Every call hands on one unit of `fuel` less. -/
def readValue (depth : Nat) : Nat → Text → Read Value
  | 0, t => .error (.malformed .value t)
  | fuel + 1, t =>
    match t, depth with
    | '"' :: rest, _ => (readText t rest).map fun (s, more) => (.text s, more)
    | '[' :: _, 0 => .error (.beyond (.depth true))
    | '[' :: rest, depth + 1 =>
      match skip rest with
      | ']' :: more => .ok (.list [], more)
      | items => (readItems depth fuel items).map fun (vs, more) => (.list vs, more)
    | '\x7b' :: _, 0 => .error (.beyond (.depth false))
    | '\x7b' :: rest, depth + 1 =>
      match skip rest with
      | '\x7d' :: more => .ok (.object [], more)
      | fields => (readFields depth fuel [] fields).map fun (fs, more) => (.object fs, more)
    | _, _ => scalar t

/-- The items of a list from `t` to its closing bracket. -/
def readItems (depth : Nat) : Nat → Text → Read (List Value)
  | 0, t => .error (.malformed .value t)
  | fuel + 1, t =>
    match readValue depth fuel t with
    | .error e => .error e
    | .ok (v, rest) =>
      match skip rest with
      | ']' :: more => .ok ([v], more)
      | ',' :: more => (readItems depth fuel (skip more)).map fun (vs, more) => (v :: vs, more)
      | other => .error (.malformed .comma other)

/-- The fields of an object from `t` to its closing brace, put behind those already read. -/
def readFields (depth : Nat) : Nat → List (Text × Value) → Text → Read (List (Text × Value))
  | 0, _, t => .error (.malformed .name t)
  | fuel + 1, sofar, t =>
    match t with
    | '"' :: body =>
      match readText t body with
      | .error e => .error e
      | .ok (name, rest) =>
        match skip rest with
        | ':' :: rest =>
          match readValue depth fuel (skip rest) with
          | .error e => .error e
          | .ok (v, rest) =>
            match skip rest with
            | '\x7d' :: more => .ok (assign name v sofar, more)
            | ',' :: more => readFields depth fuel (assign name v sofar) (skip more)
            | other => .error (.malformed .comma other)
        | other => .error (.malformed .colon other)
    | other => .error (.malformed .name other)

end

/-- The value that a whole text stands for, in which a byte order mark is a fault as any other
character would be. -/
def readWhole (t : Text) : Except Fault Value :=
  match readValue Limit.maxDepth (2 * t.length + 2) (skip t) with
  | .error e => .error e
  | .ok (v, rest) =>
    match skip rest with
    | [] => .ok v
    | other => .error (.malformed .extra other)

/-- The value that a whole text stands for. A byte order mark in front is a fault of its own. -/
def read (t : Text) : Except Fault Value :=
  match t with
  | '\ufeff' :: _ => .error (.malformed .byteOrderMark t)
  | _ => readWhole t

/-- The position in the text that was read at which this much was left. -/
def position (t left : Text) : Nat :=
  t.length - left.length

end StoryPlayer.Json
