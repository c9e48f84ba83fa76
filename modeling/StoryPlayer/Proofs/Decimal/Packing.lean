import StoryPlayer.Proofs.Decimal.Rounding

/-!
# The bits of binary64

A binary64 value is a sign bit, eleven bits for the exponent and fifty-two for the fraction. The
value is told from the number that these bits make, and every value that binary64 has is given back
when it is put into bits and taken out again.
-/

namespace StoryPlayer

open Float.Model UnpackedFloat

namespace Rounding

/-! ## Fields -/

section

variable (b : BitVec Format.binary64.numBits)

theorem toNat_unpackMantissa : (unpackMantissa b).toNat = b.toNat % 2 ^ 52 := by
  simp [unpackMantissa, Format.binary64]

theorem toNat_unpackExponent : (unpackExponent b).toNat = b.toNat / 2 ^ 52 % 2 ^ 11 := by
  simp [unpackExponent, Format.binary64, Nat.shiftRight_eq_div_pow]

theorem toNat_unpackSign : (unpackSign b).toNat = b.toNat / 2 ^ 63 := by
  have hlt : b.toNat < 2 ^ 64 := b.isLt
  have hbit : b.toNat / 2 ^ 63 < 2 := by omega
  simpa [unpackSign, Format.binary64, Nat.shiftRight_eq_div_pow] using hbit

end

theorem toNat_packComponents (s : Sign) (e : BitVec 11) (m : BitVec 52) :
    (packComponents Format.binary64 s e m).toNat =
      s.toBitVec.toNat * 2 ^ 63 + e.toNat * 2 ^ 52 + m.toNat := by
  rw [packComponents, BitVec.toNat_append, BitVec.toNat_append,
    ← Nat.shiftLeft_add_eq_or_of_lt m.isLt, ← Nat.shiftLeft_add_eq_or_of_lt e.isLt]
  simp only [Nat.shiftLeft_eq]
  omega

theorem toNat_implicit (m : BitVec 52) : (1#1 ++ m).toNat = 2 ^ 52 + m.toNat := by
  rw [BitVec.toNat_append, ← Nat.shiftLeft_add_eq_or_of_lt m.isLt]
  rfl

/-- The sign that the number of some bits has. -/
def signOfBits (n : ℕ) : Sign :=
  if n < 2 ^ 63 then .positive else .negative

theorem ofBitVec_unpackSign (b : BitVec Format.binary64.numBits) :
    Sign.ofBitVec (unpackSign b) = signOfBits b.toNat := by
  have hsign := toNat_unpackSign b
  have hzero : unpackSign b = 0#1 ↔ b.toNat < 2 ^ 63 := by
    rw [← BitVec.toNat_inj, hsign]
    change b.toNat / 2 ^ 63 = 0 ↔ _
    omega
  simp only [Sign.ofBitVec, signOfBits, hzero]

/-! ## Values from bits -/

/-- The mantissa and the exponent that the number `n` of some bits has, if they are finite. The
fraction has a bit in front of it unless the exponent is the least one. -/
structure Fields (n m : ℕ) (e : ℤ) : Prop where
  finite : n / 2 ^ 52 % 2 ^ 11 < 2047
  mantissa : m = if n / 2 ^ 52 % 2 ^ 11 = 0 then n % 2 ^ 52 else 2 ^ 52 + n % 2 ^ 52
  exponent : e = (if n / 2 ^ 52 % 2 ^ 11 = 0 then 1 else n / 2 ^ 52 % 2 ^ 11 : ℕ) - 1075

theorem unpack_eq_finite_iff {x : Float.Model} {s : Sign} {m : ℕ} {e : ℤ} {hm : 0 < m} :
    x.unpack = .finite s m e hm ↔
      s = signOfBits x.toBits.toNat ∧ Fields x.toBits.toNat m e := by
  have hmantissa : (@unpackMantissa Format.binary64 x.toBits.toBitVec).toNat =
      x.toBits.toNat % 2 ^ 52 := toNat_unpackMantissa _
  have hexponent : (@unpackExponent Format.binary64 x.toBits.toBitVec).toNat =
      x.toBits.toNat / 2 ^ 52 % 2 ^ 11 := toNat_unpackExponent _
  have hsign : Sign.ofBitVec (@unpackSign Format.binary64 x.toBits.toBitVec) =
      signOfBits x.toBits.toNat := ofBitVec_unpackSign _
  rw [Float.Model.unpack, UnpackedFloat.unpack, hsign]
  generalize x.toBits.toNat = n at *
  split
  next hlast =>
    have hc : n / 2 ^ 52 % 2 ^ 11 = 2047 := by rw [← hexponent, hlast]; rfl
    have hnone : ¬Fields n m e := fun h => by have := h.finite; omega
    split <;> simp [hnone]
  next hlast =>
    have hc : n / 2 ^ 52 % 2 ^ 11 < 2047 := by
      have hne : n / 2 ^ 52 % 2 ^ 11 ≠ 2047 := fun h =>
        hlast (BitVec.eq_of_toNat_eq (hexponent.trans h))
      omega
    split
    next hfirst =>
      have hzero : n / 2 ^ 52 % 2 ^ 11 = 0 := by rw [← hexponent, hfirst]; rfl
      split
      next hfraction =>
        have hf : n % 2 ^ 52 = 0 := by rw [← hmantissa, hfraction]; rfl
        have hnone : ¬Fields n m e := by
          intro h
          have hm' := h.mantissa
          rw [if_pos hzero, hf] at hm'
          exact hm.ne' hm'
        simp [hnone]
      next hfraction =>
        rw [UnpackedFloat.finite.injEq, hmantissa, hexponent, hzero]
        refine and_congr eq_comm ⟨?_, ?_⟩
        · rintro ⟨rfl, rfl⟩
          exact ⟨hc, (if_pos hzero).symm, by rw [if_pos hzero]; rfl⟩
        · intro h
          have hm' := h.mantissa
          have he := h.exponent
          rw [if_pos hzero] at hm' he
          exact ⟨hm'.symm, he.symm⟩
    next hfirst =>
      have hzero : n / 2 ^ 52 % 2 ^ 11 ≠ 0 := fun h =>
        hfirst (BitVec.eq_of_toNat_eq (hexponent.trans h))
      rw [UnpackedFloat.finite.injEq, toNat_implicit, hmantissa, hexponent]
      refine and_congr eq_comm ⟨?_, ?_⟩
      · rintro ⟨rfl, rfl⟩
        exact ⟨hc, (if_neg hzero).symm, by rw [if_neg hzero]; rfl⟩
      · intro h
        have hm' := h.mantissa
        have he := h.exponent
        rw [if_neg hzero] at hm' he
        exact ⟨hm'.symm, he.symm⟩

theorem Fields.canonical {n m : ℕ} {e : ℤ} (h : Fields n m e) : Canonical m e ∧ e ≤ 971 := by
  obtain ⟨hfinite, hmantissa, hexponent⟩ := h
  have hlt := Nat.mod_lt n (Nat.two_pow_pos 52)
  split at hmantissa
  next hzero =>
    rw [if_pos hzero] at hexponent
    exact ⟨⟨by omega, by omega, .inr (by omega)⟩, by omega⟩
  next hzero =>
    rw [if_neg hzero] at hexponent
    exact ⟨⟨by omega, by omega, .inl (by omega)⟩, by omega⟩

/-- The number of the bits in which a value is kept. -/
theorem toNat_pack {m : ℕ} {e : ℤ} (h : Canonical m e) (hle : e ≤ 971) (hm : 0 < m) (s : Sign) :
    (Float.Model.pack (.finite s m e hm)).toBits.toNat =
      s.toBitVec.toNat * 2 ^ 63 + (if m < 2 ^ 52 then 0 else (e + 1075).toNat) * 2 ^ 52 +
        m % 2 ^ 52 := by
  obtain ⟨hlt, hleast, hnormal⟩ := h
  change (UnpackedFloat.pack Format.binary64 (.finite s m e hm)).toNat = _
  have hbiased : (e + Format.binary64.exponentBias + Format.binary64.mantissaBitsWithoutImplicit) =
      e + 1075 := by
    change e + (1023 : ℕ) + (52 : ℕ) = _
    omega
  rw [UnpackedFloat.pack, hbiased]
  have hfinite : ¬2 ^ Format.binary64.exponentBits ≤ (e + 1075).toNat + 1 := by
    change ¬2048 ≤ _
    omega
  have hbits : m.log2 + 1 = Format.binary64.mantissaBits ↔ ¬m < 2 ^ 52 := by
    have hhigh : m.log2 < 53 := (Nat.log2_lt hm.ne').mpr hlt
    rw [← Nat.log2_lt hm.ne']
    change m.log2 + 1 = 53 ↔ _
    omega
  dsimp only
  rw [if_neg hfinite]
  split
  next hlog =>
    rw [toNat_packComponents, if_neg (hbits.mp hlog), BitVec.toNat_ofNat, BitVec.toNat_ofNat,
      Nat.mod_eq_of_lt (by omega : (e + 1075).toNat < 2 ^ 11)]
  next hlog =>
    rw [toNat_packComponents, if_pos (not_not.mp (mt hbits.mpr hlog)), BitVec.toNat_ofNat]
    rfl

theorem signOfBits_toBitVec (s : Sign) {n : ℕ} (hn : n < 2 ^ 63) :
    signOfBits (s.toBitVec.toNat * 2 ^ 63 + n) = s := by
  cases s with
  | positive => exact if_pos (by change 0 * 2 ^ 63 + n < _; omega)
  | negative => exact if_neg (by change ¬1 * 2 ^ 63 + n < _; omega)

/-- A value that binary64 has is given back when it is put into bits and taken out again. -/
theorem unpack_pack {m : ℕ} {e : ℤ} (h : Canonical m e) (hle : e ≤ 971) (hm : 0 < m) (s : Sign) :
    (Float.Model.pack (.finite s m e hm)).unpack = .finite s m e hm := by
  have hrest : (if m < 2 ^ 52 then 0 else (e + 1075).toNat) * 2 ^ 52 + m % 2 ^ 52 < 2 ^ 63 := by
    split <;> omega
  rw [unpack_eq_finite_iff, toNat_pack h hle hm s, Nat.add_assoc]
  refine ⟨(signOfBits_toBitVec s hrest).symm, ?_⟩
  obtain ⟨hlt, hleast, hnormal⟩ := h
  generalize s.toBitVec.toNat = sign
  split
  next hsmall =>
    have hzero : (sign * 2 ^ 63 + (0 * 2 ^ 52 + m % 2 ^ 52)) / 2 ^ 52 % 2 ^ 11 = 0 := by omega
    refine ⟨by omega, ?_, ?_⟩
    · rw [if_pos hzero]
      omega
    · rw [if_pos hzero]
      omega
  next hlarge =>
    have hexponent : (sign * 2 ^ 63 + ((e + 1075).toNat * 2 ^ 52 + m % 2 ^ 52)) / 2 ^ 52 % 2 ^ 11 =
        (e + 1075).toNat := by omega
    have hne : (e + 1075).toNat ≠ 0 := by omega
    refine ⟨by omega, ?_, ?_⟩
    · rw [hexponent, if_neg hne]
      omega
    · rw [hexponent, if_neg hne]
      omega

/-- The bits of a value are those in which it is kept. -/
theorem pack_unpack_self (x : Float.Model) : Float.Model.pack x.unpack = x := by
  obtain ⟨b, hb⟩ := x
  simp only [Float.Model.pack, Float.Model.unpack, pack_unpack_of_valid hb]

theorem sign_of_unpack_eq_zero {x : Float.Model} {s : Sign} (hx : x.unpack = .zero s) :
    s = signOfBits x.toBits.toNat := by
  rw [Float.Model.unpack, UnpackedFloat.unpack, ofBitVec_unpackSign] at hx
  split at hx
  · split at hx <;> cases hx
  split at hx
  · split at hx
    · exact (UnpackedFloat.zero.inj hx).symm
    · cases hx
  · cases hx

/-! ## Sign and size -/

theorem unpack_pack_zero : ∀ s, (Float.Model.pack (.zero s)).unpack = .zero s := by
  rintro (_ | _) <;> rfl

section

variable {x : Float} (hx : x.isFinite = true)
include hx

/-- A finite value is zero or has a mantissa. -/
theorem unpack_cases :
    x.toModel.unpack = .zero (signOfBits x.toBits.toNat) ∨
      ∃ m e hm, x.toModel.unpack = .finite (signOfBits x.toBits.toNat) m e hm := by
  change x.toModel.unpack.isFinite = true at hx
  cases hu : x.toModel.unpack with
  | notANumber | infinity =>
    rw [hu] at hx
    cases hx
  | zero s =>
    obtain rfl := sign_of_unpack_eq_zero hu
    exact .inl rfl
  | finite s m e hm =>
    obtain rfl := (unpack_eq_finite_iff.mp hu).1
    exact .inr ⟨m, e, hm, rfl⟩

theorem unpack_abs : x.abs.toModel.unpack = x.toModel.unpack.abs := by
  change (Float.Model.pack x.toModel.unpack.abs).unpack = _
  rcases unpack_cases hx with hu | ⟨m, e, hm, hu⟩
  · rw [hu]
    exact unpack_pack_zero .positive
  · obtain ⟨hcanonical, hle⟩ := (unpack_eq_finite_iff.mp hu).2.canonical
    rw [hu]
    exact unpack_pack hcanonical hle hm .positive

theorem abs_eq_self (hsign : x.toBits.toNat < 2 ^ 63) : x.abs = x := by
  have hpositive : signOfBits x.toBits.toNat = .positive := if_pos hsign
  have habs : x.toModel.unpack.abs = x.toModel.unpack := by
    rcases unpack_cases hx with hu | ⟨m, e, hm, hu⟩ <;> rw [hu, hpositive] <;> rfl
  change Float.ofModel (.pack x.toModel.unpack.abs) = x
  rw [habs, pack_unpack_self]

theorem neg_abs_eq_self (hsign : ¬x.toBits.toNat < 2 ^ 63) : -x.abs = x := by
  have hnegative : signOfBits x.toBits.toNat = .negative := if_neg hsign
  have habs : x.toModel.unpack.abs.neg = x.toModel.unpack := by
    rcases unpack_cases hx with hu | ⟨m, e, hm, hu⟩ <;> rw [hu, hnegative] <;> rfl
  change Float.ofModel (.pack x.abs.toModel.unpack.neg) = x
  rw [unpack_abs hx, habs, pack_unpack_self]

theorem le_zero (hsign : ¬x.toBits.toNat < 2 ^ 63) : x ≤ 0.0 := by
  have hnegative : signOfBits x.toBits.toNat = .negative := if_neg hsign
  have hzero : (0.0 : Float).toModel.unpack = .zero .positive := rfl
  have hle : UnpackedFloat.le x.toModel.unpack (0.0 : Float).toModel.unpack = true := by
    rw [hzero]
    rcases unpack_cases hx with hu | ⟨m, e, hm, hu⟩ <;> rw [hu, hnegative] <;> rfl
  exact decide_eq_true (p := x.toModel ≤ (0.0 : Float).toModel) hle

end

end Rounding

end StoryPlayer
