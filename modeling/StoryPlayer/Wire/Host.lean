import StoryPlayer.Text.Encoding
import StoryPlayer.Text.Lowercase
import StoryPlayer.Wire.NameLetters
import StoryPlayer.Wire.Percent
import StoryPlayer.Wire.Punycode

/-!
# Hosts

A host is a name, an address of four numbers, or an address of hexadecimal groups between brackets.
What has the shape of an address must be one. A name is written in lower case, and an international
one label by label in ASCII.
-/

namespace StoryPlayer.Wire

/-! ## Addresses of four numbers -/

/-- The states of `isDotted` behind one more character. An even state waits for the first digit of
a run and the odd one behind it is inside the run. -/
def dottedStep (states : List Nat) (c : Char) : List Nat :=
  states.flatMap fun s =>
    (if c.isDigit then [if s % 2 = 0 then s + 1 else s] else []) ++
      (if s % 2 = 1 ∧ s < 7 then [s + 1] else [])

/-- Whether a host has the shape of an address of four numbers: four runs of digits, with any one
character between neighbours. -/
def isDotted (host : Text) : Bool :=
  7 ∈ host.foldl (fun states c => (dottedStep states c).eraseDups) [0]

/-- Whether a text is a number from 0 to 255 without needless zeros. -/
def isByte (t : Text) : Bool :=
  t != [] && t.length ≤ 3 && t.all Char.isDigit && (t == ['0'] || t.head? != some '0') &&
    Text.natOfDigits t ≤ 255

/-- Whether a text is four numbers with points between them. -/
def isAddress4 (t : Text) : Bool :=
  let parts := Text.pieces '.' t
  parts.length = 4 && parts.all isByte

/-! ## Addresses of hexadecimal groups -/

/-- Whether a text is a group of one to four hexadecimal digits. -/
def isGroup (t : Text) : Bool :=
  t != [] && t.length ≤ 4 && t.all fun c => (Text.hexDigit? c).isSome

/-- The groups of an address, when its last part may be an address of four numbers, which counts as
two groups. -/
def groupsOf? (t : Text) : Option (List Text) :=
  let parts := Text.pieces ':' t
  match parts.getLast? with
  | some last =>
    if '.' ∈ last then
      if isAddress4 last then some (parts.dropLast ++ [['0'], ['0']]) else none
    else some parts
  | none => none

/-- The groups on one side of missing ones, of which there may be none. -/
def side (parts : List Text) : List Text :=
  if parts = [[]] then [] else parts

/-- Whether parts are the eight groups of an address. Once, nothing between two colons stands for
groups that are missing. -/
def areGroups : List Text → Bool
  | [] => false
  | first :: rest =>
    if rest.length < 2 || 8 < rest.length then false
    else if [] ∈ rest.dropLast then
      let high := side (first :: rest.takeWhile (· != []))
      let low := side ((rest.dropWhile (· != [])).drop 1)
      (high ++ low).all isGroup && (high ++ low).length ≤ 7
    else rest.length = 7 && (first :: rest).all isGroup

/-- Whether a text is an address of hexadecimal groups. The name of a zone may stand behind a
percent sign. -/
def isAddress6 (t : Text) : Bool :=
  let zoned :=
    match Text.behind? '%' t with
    | some zone => zone != [] && !zone.contains '%'
    | none => true
  !t.contains '/' && zoned && ((groupsOf? (Text.before '%' t)).map areGroups).getD false

/-! ## Names -/

/-- The characters of a name that are not written as octets. -/
def isNameSafe (c : Char) : Bool :=
  "!$&'()*+,;=\"\u0060\x7b\x7d%|\\".toList.contains c

/-- Whether all characters of a text are of ASCII. -/
def isAscii (t : Text) : Bool :=
  t.all Text.Encoding.ascii.admits

/-- Whether hyphens stand where they may in a label: not at an end, and not both as its third and
its fourth character. -/
def hasInnerHyphens (label : Text) : Bool :=
  label.head? != some '-' && label.getLast? != some '-' && (label.drop 2).take 2 != ['-', '-']

/-- Whether a label may be one of an international name: it is made of letters, or is written in
ASCII already. -/
def isLabel (label : Text) : Bool :=
  match Text.after? "xn--".toList label with
  | some written => written != [] && written.getLast? != some '-' && isAscii written
  | none => label != [] && hasInnerHyphens label && label.all isNameLetter

/-- A label in ASCII, unless it is none or too long. -/
def labelOf? (label : Text) : Option Text :=
  let written := if isAscii label then label else "xn--".toList ++ Punycode.encode label
  if isLabel label && written.length ≤ 63 then some written else none

/-- Whether a character is a full stop of some script. -/
def isFullStop (c : Char) : Bool :=
  c = '.' || c = '\u3002' || c = '\uff0e' || c = '\uff61'

/-- The labels of a name, between full stops of any script. -/
def labelsOf (name : Text) : List Text :=
  Text.pieces '.' (name.map fun c => if isFullStop c then '.' else c)

/-- An international name in ASCII. A full stop may stand at its end. -/
def nameOf? (name : Text) : Option Text :=
  let labels := labelsOf name
  let isEnded := labels.getLast? = some []
  let inner := if isEnded then labels.dropLast else labels
  match inner.mapM labelOf? with
  | some (first :: rest) =>
    let written := Text.join ['.'] (first :: rest) ++ if isEnded then ['.'] else []
    if written.length ≤ (if isEnded then 254 else 253) then some written else none
  | _ => none

/-! ## Hosts -/

/-- What keeps a text from being a host. -/
inductive HostFault
  | address4
  | address6
  | name
deriving Repr, DecidableEq

/-- A host as it is written in an address, without brackets. -/
def hostOf (t : Text) : Except HostFault Text :=
  if isDotted t then
    if isAddress4 t then .ok t else .error .address4
  else
    match t, t.getLast? with
    | '[' :: rest, some ']' =>
      if isAddress6 rest.dropLast then .ok rest.dropLast else .error .address6
    | _, _ =>
      if isAscii t then .ok (percentEncode isNameSafe (t.map Char.toLower))
      else
        match nameOf? (Text.lower t) with
        | some name => .ok name
        | none => .error .name

end StoryPlayer.Wire
