import StoryPlayer.Text.Basic

/-!
# Decoding octets

Octets are decoded one at a time, so the cuts between the pieces in which they come do not matter.
What is no UTF-8 is replaced: every longest start of a sequence that cannot go on becomes one
replacement character. A byte order mark is a character like any other.
-/

namespace StoryPlayer.Wire

/-- How octets stand for characters. -/
inductive Charset
  | utf8
  /-- Every octet is the code of its character. -/
  | latin1
deriving Repr, DecidableEq

/-- A sequence that is not complete: how many octets are missing, the bits so far, and the range in
which the next octet must lie. -/
structure Sequence where
  missing : Nat
  bits : Nat
  low : Nat
  high : Nat
deriving Repr, DecidableEq

/-- The character that stands for what could not be decoded. -/
def replacement : Char :=
  '\ufffd'

/-- What an octet gives that starts a character: a whole one, or the start of a sequence. -/
def first (b : Nat) : Text × Option Sequence :=
  if b < 0x80 then ([Char.ofNat b], none)
  else if b < 0xC2 then ([replacement], none)
  else if b < 0xE0 then ([], some ⟨1, b - 0xC0, 0x80, 0xBF⟩)
  else if b < 0xF0 then
    ([], some ⟨2, b - 0xE0, if b = 0xE0 then 0xA0 else 0x80, if b = 0xED then 0x9F else 0xBF⟩)
  else if b < 0xF5 then
    ([], some ⟨3, b - 0xF0, if b = 0xF0 then 0x90 else 0x80, if b = 0xF4 then 0x8F else 0xBF⟩)
  else ([replacement], none)

/-- What one more octet gives behind an open sequence or none. -/
def decodeStep (s : Option Sequence) (b : Nat) : Text × Option Sequence :=
  match s with
  | none => first b
  | some s =>
    if s.low ≤ b ∧ b ≤ s.high then
      let bits := s.bits * 64 + (b - 0x80)
      if s.missing ≤ 1 then ([Char.ofNat bits], none)
      else ([], some ⟨s.missing - 1, bits, 0x80, 0xBF⟩)
    else
      let (t, s) := first b
      (replacement :: t, s)

/-- The characters of more octets and the sequence left open behind them. -/
def decode (c : Charset) (s : Option Sequence) : List UInt8 → Text × Option Sequence
  | [] => ([], s)
  | b :: bs =>
    match c with
    | .latin1 =>
      let (t, s) := decode c s bs
      (Char.ofNat b.toNat :: t, s)
    | .utf8 =>
      let (t, s) := decodeStep s b.toNat
      let (more, s) := decode c s bs
      (t ++ more, s)

/-- The characters at the end of the octets: a sequence that is still open cannot go on. -/
def decodeEnd (s : Option Sequence) : Text :=
  match s with
  | none => []
  | some _ => [replacement]

theorem decode_append (c : Charset) (s : Option Sequence) (a b : List UInt8) :
    decode c s (a ++ b) =
      ((decode c s a).1 ++ (decode c (decode c s a).2 b).1, (decode c (decode c s a).2 b).2) := by
  induction a generalizing s with
  | nil => simp [decode]
  | cons x xs ih => cases c <;> simp [decode, ih]

/-- The octets of a text. -/
def encode (t : Text) : List UInt8 :=
  t.flatMap String.utf8EncodeChar

end StoryPlayer.Wire
