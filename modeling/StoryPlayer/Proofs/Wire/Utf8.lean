import StoryPlayer.Wire.Utf8

/-!
# Octets of a text

The octets of a text are decoded to the text, and nothing of them is held back.
-/

namespace StoryPlayer.Wire

/-- The last octet of a sequence. -/
theorem decodeStep_last {bits low high b : Nat} (hlow : low ≤ b) (hhigh : b ≤ high) :
    decodeStep (some ⟨1, bits, low, high⟩) b = ([Char.ofNat (bits * 64 + (b - 0x80))], none) := by
  simp [decodeStep, hlow, hhigh]

/-- An octet of a sequence behind which others are missing. -/
theorem decodeStep_more {missing bits low high b : Nat} (hlow : low ≤ b) (hhigh : b ≤ high) :
    decodeStep (some ⟨missing + 2, bits, low, high⟩) b =
      ([], some ⟨missing + 1, bits * 64 + (b - 0x80), 0x80, 0xBF⟩) := by
  simp [decodeStep, hlow, hhigh]

theorem decode_cons {n : Nat} (hn : n < 256) (s : Option Sequence) (bs : List UInt8) :
    decode .utf8 s (UInt8.ofNat n :: bs) =
      ((decodeStep s n).1 ++ (decode .utf8 (decodeStep s n).2 bs).1,
        (decode .utf8 (decodeStep s n).2 bs).2) := by
  have hnat : (UInt8.ofNat n).toNat = n := by
    rw [UInt8.toNat_ofNat']
    exact Nat.mod_eq_of_lt hn
  rw [decode, hnat]

theorem decode_one {n : Nat} (h : n ≤ 127) :
    decode .utf8 none [UInt8.ofNat n] = ([Char.ofNat n], none) := by
  have hfirst : decodeStep none n = ([Char.ofNat n], none) := by
    unfold decodeStep first
    rw [if_pos (by omega)]
  rw [decode_cons (by omega), hfirst]
  rfl

theorem decode_two {n : Nat} (h : 127 < n) (h' : n ≤ 2047) :
    decode .utf8 none [UInt8.ofNat (n / 64 % 32 + 192), UInt8.ofNat (n % 64 + 128)] =
      ([Char.ofNat n], none) := by
  have hfirst : decodeStep none (n / 64 % 32 + 192) = ([], some ⟨1, n / 64, 0x80, 0xBF⟩) := by
    have hbits : n / 64 % 32 + 192 - 0xC0 = n / 64 := by omega
    unfold decodeStep first
    rw [if_neg (by omega), if_neg (by omega), if_pos (by omega), hbits]
  have hcode : n / 64 * 64 + (n % 64 + 128 - 0x80) = n := by omega
  rw [decode_cons (by omega), hfirst, decode_cons (by omega),
    decodeStep_last (by omega) (by omega), hcode]
  rfl

/-- The codes that no character has are left out by the range of the second octet. -/
theorem decode_three {n : Nat} (h : 2047 < n) (h' : n ≤ 65535)
    (hvalid : n < 0xD800 ∨ 0xDFFF < n) :
    decode .utf8 none [UInt8.ofNat (n / 4096 % 16 + 224), UInt8.ofNat (n / 64 % 64 + 128),
      UInt8.ofNat (n % 64 + 128)] = ([Char.ofNat n], none) := by
  obtain ⟨low, high, hfirst, hlow, hhigh⟩ : ∃ low high,
      decodeStep none (n / 4096 % 16 + 224) = ([], some ⟨2, n / 4096, low, high⟩) ∧
        low ≤ n / 64 % 64 + 128 ∧ n / 64 % 64 + 128 ≤ high := by
    have hbits : n / 4096 % 16 + 224 - 0xE0 = n / 4096 := by omega
    unfold decodeStep first
    rw [if_neg (by omega), if_neg (by omega), if_neg (by omega), if_pos (by omega), hbits]
    refine ⟨_, _, rfl, ?_, ?_⟩
    · split <;> omega
    · split <;> omega
  have hcode : (n / 4096 * 64 + (n / 64 % 64 + 128 - 0x80)) * 64 + (n % 64 + 128 - 0x80) = n := by
    omega
  rw [decode_cons (by omega), hfirst, decode_cons (by omega), decodeStep_more hlow hhigh,
    decode_cons (by omega), decodeStep_last (by omega) (by omega), hcode]
  rfl

theorem decode_four {n : Nat} (h : 65535 < n) (h' : n < 0x110000) :
    decode .utf8 none [UInt8.ofNat (n / 262144 % 8 + 240), UInt8.ofNat (n / 4096 % 64 + 128),
      UInt8.ofNat (n / 64 % 64 + 128), UInt8.ofNat (n % 64 + 128)] = ([Char.ofNat n], none) := by
  obtain ⟨low, high, hfirst, hlow, hhigh⟩ : ∃ low high,
      decodeStep none (n / 262144 % 8 + 240) = ([], some ⟨3, n / 262144, low, high⟩) ∧
        low ≤ n / 4096 % 64 + 128 ∧ n / 4096 % 64 + 128 ≤ high := by
    have hbits : n / 262144 % 8 + 240 - 0xF0 = n / 262144 := by omega
    unfold decodeStep first
    rw [if_neg (by omega), if_neg (by omega), if_neg (by omega), if_neg (by omega),
      if_pos (by omega), hbits]
    refine ⟨_, _, rfl, ?_, ?_⟩
    · split <;> omega
    · split <;> omega
  have hcode : ((n / 262144 * 64 + (n / 4096 % 64 + 128 - 0x80)) * 64 +
      (n / 64 % 64 + 128 - 0x80)) * 64 + (n % 64 + 128 - 0x80) = n := by omega
  rw [decode_cons (by omega), hfirst, decode_cons (by omega), decodeStep_more hlow hhigh,
    decode_cons (by omega), decodeStep_more (by omega) (by omega), decode_cons (by omega),
    decodeStep_last (by omega) (by omega), hcode]
  rfl

theorem decode_encodeChar (c : Char) :
    decode .utf8 none (String.utf8EncodeChar c) = ([c], none) := by
  have hvalid : c.toNat < 0xD800 ∨ 0xDFFF < c.toNat ∧ c.toNat < 0x110000 := c.valid
  have hdecoded : decode .utf8 none (String.utf8EncodeChar c) = ([Char.ofNat c.toNat], none) := by
    unfold String.utf8EncodeChar
    dsimp only
    split
    next h => exact decode_one h
    next h =>
      split
      next h' => exact decode_two (Nat.lt_of_not_le h) h'
      next h' =>
        split
        next h'' => exact decode_three (Nat.lt_of_not_le h') h'' (hvalid.imp_right And.left)
        next h'' =>
          replace h'' : 65535 < c.toNat := Nat.lt_of_not_le h''
          have hlt : c.toNat < 0x110000 := by omega
          exact decode_four h'' hlt
  rwa [c.ofNat_toNat] at hdecoded

theorem decode_encode (t : Text) : decode .utf8 none (encode t) = (t, none) := by
  induction t with
  | nil => rfl
  | cons c t ih =>
    change decode .utf8 none (String.utf8EncodeChar c ++ encode t) = _
    rw [decode_append, decode_encodeChar, ih]
    rfl

end StoryPlayer.Wire
