import StoryPlayer.Text.Quoted

/-!
# Encodings

A text leaves the program in an encoding, and an encoding need not have octets for all of it. What
it has none for is named by the first place where that happens.
-/

namespace StoryPlayer.Text

/-- The encodings that a text may have to go through. -/
inductive Encoding
  | ascii
  | utf8
deriving Repr, DecidableEq

namespace Encoding

def name : Encoding → String
  | ascii => "ascii"
  | utf8 => "utf-8"

/-- Whether an encoding has octets for a character. -/
def admits (e : Encoding) (c : Char) : Bool :=
  match e with
  | ascii => c.toNat < 0x80
  | utf8 => !isHalf c

/-- What an encoding says about the characters that it has no octets for. -/
def limit : Encoding → String
  | ascii => "ordinal not in range(128)"
  | utf8 => "surrogates not allowed"

end Encoding

/-- Neighbouring characters of a text for which an encoding has no octets, and the position of the
first of them. -/
structure Unencodable where
  encoding : Encoding
  start : Nat
  chars : Text
deriving Repr, DecidableEq

/-- The first characters of a text for which an encoding has no octets. -/
def Encoding.unencodable? (e : Encoding) (t : Text) : Option Unencodable :=
  match (t.dropWhile e.admits).takeWhile fun c => !e.admits c with
  | [] => none
  | cs => some ⟨e, (t.takeWhile e.admits).length, cs⟩

/-- The wording of what cannot be encoded: a single character is shown, several are counted. -/
def Unencodable.message (u : Unencodable) : Text :=
  let place :=
    match u.chars with
    | [c] => "character '".toList ++ codeEscape c ++ "' in position ".toList ++ ofNat u.start
    | cs =>
      "characters in position ".toList ++ ofNat u.start ++ '-' :: ofNat (u.start + cs.length - 1)
  '\'' :: u.encoding.name.toList ++ "' codec can't encode ".toList ++ place ++ ':' :: ' ' ::
    u.encoding.limit.toList

/-- An encoding has octets for a text exactly when it has them for every character. -/
theorem Encoding.unencodable?_eq_none_iff {e : Encoding} {t : Text} :
    e.unencodable? t = none ↔ ∀ c ∈ t, e.admits c := by
  have hstep : e.unencodable? t = none ↔
      (t.dropWhile e.admits).takeWhile (fun c => !e.admits c) = [] := by
    unfold unencodable?
    split <;> simp_all
  rw [hstep]
  induction t with
  | nil => simp
  | cons c t ih =>
    by_cases hc : e.admits c = true
    · rw [List.dropWhile_cons_of_pos hc, List.forall_mem_cons]
      refine ⟨fun h => ⟨hc, (ih ?_).1 h⟩, fun h => (ih ?_).2 h.2⟩ <;>
        (unfold unencodable?; split <;> simp_all)
    · simp [hc]

end StoryPlayer.Text
