import StoryPlayer.Text.Basic

/-!
# International labels in ASCII

A label is written in ASCII by its characters of ASCII, and behind a hyphen by where the others go:
these are taken by ascending code, and each is told by a number, how many steps it is away in a walk
through all codes and all places. The digits of the numbers are letters and digits, and how far a
number reaches is adapted to the numbers in front of it.
-/

namespace StoryPlayer.Wire.Punycode

/-- The digit of a number below thirty-six. -/
def digit (n : Nat) : Char :=
  if n < 26 then Char.ofNat (0x61 + n) else Char.ofNat (0x30 + (n - 26))

/-- The least digit at a place that does not end a number. -/
def threshold (bias place : Nat) : Nat :=
  max 1 (min 26 (place - bias))

/-- A number as digits from a place on. -/
def digits (bias place n : Nat) : Text :=
  let t := threshold bias place
  if n < t then [digit n]
  else digit (t + (n - t) % (36 - t)) :: digits bias (place + 36) ((n - t) / (36 - t))
termination_by n
decreasing_by
  have hlow : 1 ≤ threshold bias place := Nat.le_max_left ..
  have hdiv := Nat.div_le_self (n - threshold bias place) (36 - threshold bias place)
  omega

/-- A bias that is adapted to a number already brought down to size. -/
def adapted (bias n : Nat) : Nat :=
  if 455 < n then adapted (bias + 36) (n / 35) else bias + 36 * n / (n + 38)
termination_by n
decreasing_by exact Nat.div_lt_self (by omega) (by omega)

/-- How far the walk has come: what is written, the steps since the last character, the bias, and
how many characters have their place. -/
structure Walk where
  written : Text
  steps : Nat
  bias : Nat
  placed : Nat

/-- The walk passes a character of the label on its way for the code `m`; `first` is how many
characters had their place when it began. -/
def Walk.pass (first m : Nat) (w : Walk) (c : Char) : Walk :=
  if c.toNat < m then { w with steps := w.steps + 1 }
  else if c.toNat = m then
    let n := if w.placed = first then w.steps / 700 else w.steps / 2
    ⟨w.written ++ digits w.bias 36 w.steps, 0, adapted 0 (n + n / (w.placed + 1)), w.placed + 1⟩
  else w

/-- The walk for the codes in order, of which `code` is the first that was not walked through. -/
def Walk.along (label : Text) (first : Nat) (w : Walk) (code : Nat) : List Nat → Walk
  | [] => w
  | m :: rest =>
    let w := { w with steps := w.steps + (m - code) * (w.placed + 1) }
    let w := label.foldl (Walk.pass first m) w
    Walk.along label first { w with steps := w.steps + 1 } (m + 1) rest

/-- The different codes past ASCII in a label, ascending. -/
def codes (label : Text) : List Nat :=
  ((label.map Char.toNat).filter (0x80 ≤ ·)).mergeSort.eraseDups

/-- A label in ASCII. -/
def encode (label : Text) : Text :=
  let plain := label.filter fun c => c.toNat < 0x80
  let start := if plain = [] then [] else plain ++ ['-']
  (Walk.along label plain.length ⟨start, 0, 72, plain.length⟩ 0x80 (codes label)).written

end StoryPlayer.Wire.Punycode
