import StoryPlayer.Text.Ranges

/-!
# Text

A text is the list of its code points, so that every length, cut and chunk counts code points and
every operation is an operation on lists. `String` appears only where text enters or leaves.

Blanks are those of Unicode together with the four information separators. A text is trimmed of
blanks at both ends; lines end at the line feed and nowhere else.
-/

namespace StoryPlayer

/-- A text is the list of its code points. -/
abbrev Text := List Char

/-- Named, so that all membership tests rest on the same proof. -/
instance lawfulBEqText : LawfulBEq Text :=
  inferInstance

namespace Text

/-- The code points of the blank characters, ascending and apart. -/
def blankRanges : List (Nat × Nat) :=
  [(0x09, 0x0D), (0x1C, 0x20), (0x85, 0x85), (0xA0, 0xA0), (0x1680, 0x1680), (0x2000, 0x200A),
   (0x2028, 0x2029), (0x202F, 0x202F), (0x205F, 0x205F), (0x3000, 0x3000)]

/-- Whether a character is dropped at the ends of a trimmed text. -/
def isBlank (c : Char) : Bool :=
  within blankRanges c.toNat

/-- Drops the blanks at the front. -/
def trimLeft (t : Text) : Text :=
  t.dropWhile isBlank

/-- Drops the characters at the back that satisfy `p`. -/
def dropEndWhile (p : Char → Bool) (t : Text) : Text :=
  (t.reverse.dropWhile p).reverse

/-- Drops the blanks at both ends. -/
def trim (t : Text) : Text :=
  dropEndWhile isBlank (trimLeft t)

/-- What follows `mark` in `t`, when `t` starts with it. -/
def after? : Text → Text → Option Text
  | [], t => some t
  | _ :: _, [] => none
  | m :: mark, c :: t => if m = c then after? mark t else none

/-- The pieces between the occurrences of `sep`: one more than there are occurrences. -/
def pieces (sep : Char) : Text → List Text
  | [] => [[]]
  | c :: rest =>
    if c = sep then [] :: pieces sep rest
    else
      match pieces sep rest with
      | [] => [[c]]
      | piece :: more => (c :: piece) :: more

/-- The lines of a text; the last one is what follows the last line feed. -/
def lines (t : Text) : List Text :=
  pieces '\n' t

/-- What stands before the first `sep`, or the whole text when there is none. -/
def before (sep : Char) (t : Text) : Text :=
  t.takeWhile (· != sep)

/-- What stands behind the first `sep`, if there is one. -/
def behind? (sep : Char) (t : Text) : Option Text :=
  match t.dropWhile (· != sep) with
  | [] => none
  | _ :: rest => some rest

/-- The texts in order with `sep` between neighbours. -/
def join (sep : Text) (ts : List Text) : Text :=
  sep.intercalate ts

/-- The decimal digits of a natural number. -/
def ofNat (n : Nat) : Text :=
  Nat.toDigits 10 n

/-- The decimal digits of an integer, behind a minus sign when it is negative. -/
def ofInt : Int → Text
  | .ofNat n => ofNat n
  | .negSucc n => '-' :: ofNat (n + 1)

/-- The number that a run of decimal digits stands for. -/
def natOfDigits (ds : Text) : Nat :=
  ds.foldl (fun n d => n * 10 + (d.toNat - 48)) 0

/-- A number in hexadecimal with lower-case digits, filled with zeros up to `width`. -/
def hex (width n : Nat) : Text :=
  let digits := Nat.toDigits 16 n
  List.replicate (width - digits.length) '0' ++ digits

/-- The value of a hexadecimal digit. -/
def hexDigit? (c : Char) : Option Nat :=
  if '0' ≤ c ∧ c ≤ '9' then some (c.toNat - 48)
  else if 'a' ≤ c ∧ c ≤ 'f' then some (c.toNat - 87)
  else if 'A' ≤ c ∧ c ≤ 'F' then some (c.toNat - 55)
  else none

theorem pieces_ne_nil (sep : Char) (t : Text) : pieces sep t ≠ [] := by
  cases t with
  | nil => simp [pieces]
  | cons c rest =>
    unfold pieces
    split
    · simp
    · split <;> simp

theorem not_mem_of_mem_pieces {sep : Char} {t piece : Text} (h : piece ∈ pieces sep t) :
    sep ∉ piece := by
  induction t generalizing piece with
  | nil => simp_all [pieces]
  | cons c rest ih =>
    unfold pieces at h
    split at h
    · rcases List.mem_cons.1 h with rfl | h
      · simp
      · exact ih h
    · rename_i hc
      cases hp : pieces sep rest with
      | nil => exact absurd hp (pieces_ne_nil sep rest)
      | cons head more =>
        rw [hp] at h ih
        rcases List.mem_cons.1 h with rfl | h
        · simpa [Ne.symm hc] using ih (List.mem_cons_self ..)
        · exact ih (List.mem_cons_of_mem _ h)

/-- Joining the pieces with the separator gives the text back. -/
theorem join_pieces (sep : Char) (t : Text) : join [sep] (pieces sep t) = t := by
  induction t with
  | nil => rfl
  | cons c rest ih =>
    unfold pieces
    split
    next h =>
      subst h
      cases hp : pieces c rest with
      | nil => exact absurd hp (pieces_ne_nil c rest)
      | cons piece more => rw [hp] at ih; simpa [join, List.intercalate] using ih
    next =>
      cases hp : pieces sep rest with
      | nil => exact absurd hp (pieces_ne_nil sep rest)
      | cons piece more =>
        rw [hp] at ih
        cases more with
        | nil => simpa [join, List.intercalate] using ih
        | cons next more => simpa [join, List.intercalate] using ih

end Text

end StoryPlayer
