import StoryPlayer.Text.Newline
import StoryPlayer.Text.Quoted

/-!
# Folders of files

A folder holds texts under paths. Every path on the way to a file is a folder too, and further ones
can be made. Above them lie folders of which nothing is known. Following a path stops at the first
part that is not there, that would lie inside a file or whose name is too long, and the fault names
the whole path that was asked for.
-/

namespace StoryPlayer

/-- A path: the slashes that it starts from, if it does, and its parts. -/
structure Path where
  root : Text
  parts : List Text
deriving Repr, DecidableEq

namespace Path

/-- The slashes at the front of a path that count: one, or exactly two. -/
def rootOf : Text → Text
  | ['/', '/'] => ['/', '/']
  | '/' :: '/' :: c :: _ => if c = '/' then ['/'] else ['/', '/']
  | '/' :: _ => ['/']
  | _ => []

/-- The path that a text names. Empty parts and single points are no parts. -/
def ofText (t : Text) : Path :=
  ⟨rootOf t, (Text.pieces '/' t).filter fun part => part != [] && part != ['.']⟩

/-- The shortest text that names the path. -/
def toText (p : Path) : Text :=
  match p.root, p.parts with
  | [], [] => ['.']
  | root, parts => root ++ Text.join ['/'] parts

/-- The path one part further down. -/
def child (p : Path) (part : Text) : Path :=
  { p with parts := p.parts ++ [part] }

/-- The part that leads up. -/
def up : Text := ['.', '.']

/-- Whether a path leads only up, if anywhere. -/
def isOuter (p : Path) : Bool :=
  p.parts.all (· == up)

/-- The path one part further up. There is nothing above the top. -/
def parent (p : Path) : Path :=
  if p.parts = [] ∧ p.root ≠ [] then p
  else if p.isOuter then p.child up
  else { p with parts := p.parts.dropLast }

/-- The most octets that a part may have. -/
def maxPart : Nat := 255

/-- The most octets that a path may have. -/
def maxLength : Nat := 4095

/-- The octets that a text has as a name. -/
def octets (t : Text) : Nat :=
  t.foldr (fun c n => c.utf8Size + n) 0

/-- Whether a path is too long to be asked for. -/
def isTooLong (p : Path) : Bool :=
  maxLength < octets p.toText

/-- Whether a path is another one or lies above it. -/
def isAbove (p q : Path) : Bool :=
  p.root == q.root && p.parts.isPrefixOf q.parts

end Path

/-- Why a file cannot be had. -/
inductive FileCause
  | missing
  | inFile
  | isFolder
  | isThere
  | tooLong
deriving Repr, DecidableEq

def FileCause.number : FileCause → Nat
  | missing => 2
  | inFile => 20
  | isFolder => 21
  | isThere => 17
  | tooLong => 36

def FileCause.message : FileCause → String
  | missing => "No such file or directory"
  | inFile => "Not a directory"
  | isFolder => "Is a directory"
  | isThere => "File exists"
  | tooLong => "File name too long"

/-- A cause and the path that was asked for. -/
structure FileFault where
  cause : FileCause
  path : Path
deriving Repr, DecidableEq

def FileFault.message (f : FileFault) : Text :=
  "[Errno ".toList ++ Text.ofNat f.cause.number ++ "] ".toList ++ f.cause.message.toList ++
    ": ".toList ++ Text.quoted f.path.toText

/-- What is found under a path. -/
inductive Entry
  | file (t : Text)
  | folder
deriving Repr, DecidableEq

/-- Files under their paths, and the folders that were made. -/
structure Folder where
  files : List (Path × Text)
  made : List Path
deriving Repr, DecidableEq

namespace Folder

/-- A folder that holds texts under paths. -/
def ofFiles (files : List (Text × Text)) : Folder :=
  ⟨files.map fun (path, t) => (Path.ofText path, t), []⟩

/-- What is found under a path that has upward parts in front only. -/
def entry? (f : Folder) (p : Path) : Option Entry :=
  match f.files.find? fun file => file.1 == p with
  | some file => some (.file file.2)
  | none =>
    if p.isOuter || f.files.any (p.isAbove ·.1) || f.made.any p.isAbove then some .folder
    else none

/-- Where a part leads from a place that is found: two points lead up. -/
def next (f : Folder) (place : Path) (part : Text) : Except FileCause Path :=
  match f.entry? place with
  | none => .error .missing
  | some (.file _) => .error .inFile
  | some .folder =>
    if part = Path.up then .ok place.parent
    else if Path.maxPart < Path.octets part then .error .tooLong
    else .ok (place.child part)

/-- What is found where the parts lead from a place. -/
def follow (f : Folder) (place : Path) : List Text → Except FileCause Entry
  | [] =>
    match f.entry? place with
    | some e => .ok e
    | none => .error .missing
  | part :: rest =>
    match f.next place part with
    | .ok place => follow f place rest
    | .error c => .error c

/-- What is found under a path. -/
def find (f : Folder) (p : Path) : Except FileFault Entry :=
  if p.isTooLong then .error ⟨.tooLong, p⟩
  else
    match f.follow ⟨p.root, []⟩ p.parts with
    | .ok e => .ok e
    | .error c => .error ⟨c, p⟩

/-- The text under a path, with its lines ended by line feeds. -/
def read (f : Folder) (p : Path) : Except FileFault Text :=
  match f.find p with
  | .ok (.file t) => .ok (Text.withLineFeeds t)
  | .ok .folder => .error ⟨.isFolder, p⟩
  | .error e => .error e

/-- The place where the parts lead from a place; nothing need be under the last of them. -/
def placeOf (f : Folder) (place : Path) : List Text → Except FileCause Path
  | [] => .ok place
  | part :: rest => do placeOf f (← f.next place part) rest

/-- Makes the folder of a path where nothing is yet. -/
def makeNew (f : Folder) (p : Path) : Except FileCause Folder := do
  if p.isTooLong then .error .tooLong
  else
    let place ← f.placeOf ⟨p.root, []⟩ p.parts
    match f.entry? place with
    | some _ => .error .isThere
    | none => .ok { f with made := place :: f.made }

/-- Whether a folder is under a path. -/
def isFolder (f : Folder) (p : Path) : Bool :=
  match f.find p with
  | .ok .folder => true
  | _ => false

/-- Makes a folder where none is. -/
def makeOne (f : Folder) (p : Path) : Except FileFault Folder :=
  match f.makeNew p with
  | .ok f => .ok f
  | .error c => if c ≠ .missing ∧ f.isFolder p then .ok f else .error ⟨c, p⟩

/-- Makes the folder of a path that starts from `root` and has these parts, the last one first.
Where the folder above it is missing, that one is made first. -/
def makeUnder (f : Folder) (root : Text) : List Text → Except FileFault Folder
  | [] => f.makeOne ⟨root, []⟩
  | part :: above =>
    let p : Path := ⟨root, (part :: above).reverse⟩
    match f.makeOne p with
    | .error ⟨.missing, _⟩ => do (← makeUnder f root above).makeOne p
    | made => made

/-- Makes the folder of a path, and those above it, unless they are there. -/
def make (f : Folder) (p : Path) : Except FileFault Folder :=
  f.makeUnder p.root p.parts.reverse

end Folder

end StoryPlayer
