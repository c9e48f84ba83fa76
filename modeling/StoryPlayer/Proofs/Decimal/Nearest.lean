import StoryPlayer.Decimal.Basic
import StoryPlayer.Proofs.Decimal.Packing

/-!
# The value nearest to a decimal

Units of a power of ten are read by two ways: a few digits by one product or quotient of whole
numbers that binary64 has, all others from the digits themselves. Both give the value nearest to the
number, so what is read depends on the number only, and not on how its digits are spread over units
and exponent. A value that binary64 has is nearest to itself, and so it is read from any decimal that
stands for it. The shortest decimal that is found for a value either was tried, or stands for it.
-/

namespace StoryPlayer

open Float.Model UnpackedFloat

namespace Rounding

/-! ## Whole numbers and powers of ten -/

theorem round_natCast {m : ℕ} (hm : 0 < m) (hlt : m < 2 ^ 53) :
    UnpackedFloat.round Format.binary64 .positive m 0 = nearest .positive m := by
  have hm' : (0 : ℚ) < m := by exact_mod_cast hm
  have hlog : Nat.log 2 m < 53 := Nat.log_lt_of_lt_pow hm.ne' hlt
  have hplace : -((52 - Nat.log 2 m : ℕ) : ℤ) ≤ lastPlace m := by
    unfold lastPlace
    rw [Int.log_natCast]
    omega
  have hshift : (0 - Format.binary64.targetExponent (totalExponent m 0)).toNat =
      52 - Nat.log 2 m := by
    rw [targetExponent_eq, totalExponent, Nat.log2_eq_log_two]
    omega
  rw [UnpackedFloat.round, decreaseExponent, hshift]
  refine roundWithAccuracy_eq hm' _ ?_ (by rwa [zero_sub])
  rw [ofMantissaAndAccuracy_exact, Nat.shiftLeft_eq, zero_sub, zpow_neg, div_inv_eq_mul]
  push_cast
  rfl

/-- Whether a value is a whole number, in as many bits as fit. -/
def isWhole (x : UnpackedFloat) (n : ℕ) : Bool :=
  match x with
  | .finite .positive m e _ => 2 ^ 52 ≤ m && m * 2 ^ e.toNat == n * 2 ^ (-e).toNat
  | _ => false

theorem isWhole_iff {x : UnpackedFloat} {n : ℕ} :
    isWhole x n = true ↔
      ∃ m e hm, x = .finite .positive m e hm ∧ 2 ^ 52 ≤ m ∧ (m * 2 ^ e : ℚ) = n := by
  unfold isWhole
  split
  next m e hm =>
    have hpow : (0 : ℚ) < 2 ^ (-e).toNat := pow_pos two_pos _
    have hscale : (2 : ℚ) ^ e * 2 ^ (-e).toNat = 2 ^ e.toNat := by
      rw [← zpow_natCast, ← zpow_natCast, ← zpow_add₀ two_ne_zero]
      congr 1
      omega
    have hvalue : m * 2 ^ e.toNat = n * 2 ^ (-e).toNat ↔ (m * 2 ^ e : ℚ) = n := by
      rw [← mul_left_inj' hpow.ne', mul_assoc, hscale]
      exact_mod_cast Iff.rfl
    simp [hvalue, hm]
  next hother =>
    simp only [Bool.false_eq_true, false_iff]
    rintro ⟨m, e, hm, rfl, -⟩
    exact hother m e hm rfl

/-- The table of powers of ten holds what it says. -/
theorem isWhole_powerOfTen : ∀ i : Fin 23,
    isWhole (Float.exactlyRepresentablePowersOfTen[i]).toModel.unpack (10 ^ i.1) = true := by
  decide

theorem isWhole_toFloat {m : ℕ} (hm : 0 < m) (hlt : m < 2 ^ 53) :
    isWhole m.toUInt64.toFloat.toModel.unpack m = true := by
  have hnat : m.toUInt64.toNat = m := Nat.mod_eq_of_lt (by omega)
  have hfloat : m.toUInt64.toFloat.toModel =
      Float.Model.pack (UnpackedFloat.round Format.binary64 .positive m 0) := by
    change Float.Model.pack
      (UnpackedFloat.normalize Format.binary64 (m.toUInt64.toNat : ℤ) 0 .positive) = _
    rw [hnat, UnpackedFloat.normalize, Int.compare_eq_gt.mpr (by exact_mod_cast hm)]
    rfl
  have hlog : Nat.log 2 m < 53 := Nat.log_lt_of_lt_pow hm.ne' hlt
  set k := 52 - Nat.log 2 m with hk
  have hlow : 2 ^ 52 ≤ m * 2 ^ k := by
    calc 2 ^ 52 = 2 ^ Nat.log 2 m * 2 ^ k := by rw [← pow_add]; congr 1; omega
      _ ≤ m * 2 ^ k := Nat.mul_le_mul_right _ (Nat.pow_log_le_self 2 hm.ne')
  have hhigh : m * 2 ^ k < 2 ^ 53 := by
    calc m * 2 ^ k < 2 ^ (Nat.log 2 m + 1) * 2 ^ k :=
          Nat.mul_lt_mul_of_pos_right (Nat.lt_pow_succ_log_self one_lt_two m) (Nat.two_pow_pos k)
      _ = 2 ^ 53 := by rw [← pow_add]; congr 1; omega
  have hcanonical : Canonical (m * 2 ^ k) (-k) := ⟨hhigh, by omega, .inl hlow⟩
  have hvalue : (((m * 2 ^ k : ℕ) : ℚ) * 2 ^ (-(k : ℤ))) = m := by
    push_cast
    rw [zpow_neg, zpow_natCast, mul_inv_cancel_right₀ (pow_ne_zero k two_ne_zero)]
  have hpos : 0 < m * 2 ^ k := by omega
  rw [isWhole_iff, hfloat, round_natCast hm hlt]
  refine ⟨m * 2 ^ k, -k, hpos, ?_, hlow, hvalue⟩
  rw [← hvalue, nearest_canonical hcanonical hpos, unpack_pack hcanonical (by omega)]

/-! ## Decimals -/

section

variable {m k : ℕ} (hm : 0 < m)
include hm

/-- A product or a quotient of two whole numbers that binary64 has is rounded once. -/
theorem ofScientific_small (hlt : m < 2 ^ 53) (hk : k < 23) (negative : Bool) :
    Float.ofScientific m negative k =
      ⟨.pack (nearest .positive (m * 10 ^ (if negative then -k else k : ℤ)))⟩ := by
  obtain ⟨n, e, hn, hwhole, hlarge, hvalue⟩ := isWhole_iff.mp (isWhole_toFloat hm hlt)
  obtain ⟨n', e', hn', hpower, hlarge', hvalue'⟩ := isWhole_iff.mp (isWhole_powerOfTen ⟨k, hk⟩)
  change (Float.exactlyRepresentablePowersOfTen[k]).toModel.unpack = _ at hpower
  push_cast at hvalue'
  have hpow : (2 : ℚ) ^ e ≠ 0 := zpow_ne_zero e two_ne_zero
  have hpow' : (2 : ℚ) ^ e' ≠ 0 := zpow_ne_zero e' two_ne_zero
  have hn'' : (n' : ℚ) ≠ 0 := by exact_mod_cast hn'.ne'
  rw [Float.ofScientific, dif_pos ⟨hlt, Nat.le_of_lt_succ hk⟩]
  cases negative with
  | false =>
    have hq : ((n * n' : ℕ) : ℚ) = m * 10 ^ (k : ℤ) / 2 ^ (e + e') := by
      rw [zpow_natCast, ← hvalue, ← hvalue', zpow_add₀ two_ne_zero]
      push_cast
      field_simp
    change Float.ofModel (.pack (mul Format.binary64 m.toUInt64.toFloat.toModel.unpack
      (Float.exactlyRepresentablePowersOfTen[k]).toModel.unpack)) = _
    rw [hwhole, hpower, mul_finite hn hn' hq (by nlinarith)]
    rfl
  | true =>
    have hq : (n : ℚ) / n' = m * 10 ^ (-k : ℤ) / 2 ^ (e - e') := by
      rw [zpow_neg, zpow_natCast, ← hvalue, ← hvalue', zpow_sub₀ two_ne_zero]
      field_simp
    change Float.ofModel (.pack (UnpackedFloat.div Format.binary64
      m.toUInt64.toFloat.toModel.unpack
      (Float.exactlyRepresentablePowersOfTen[k]).toModel.unpack)) = _
    rw [hwhole, hpower, div_finite hn hn' hq]
    rfl

theorem ofScientific_unpacked {e : ℤ} (hhigh : e ≤ 2 ^ 11) (hlow : -(2 ^ 11 + m.log2) ≤ e) :
    UnpackedFloat.ofScientific Format.binary64 m e = nearest .positive (m * 10 ^ e) := by
  rw [UnpackedFloat.ofScientific, dif_neg hm.ne', if_neg (not_lt.mpr hhigh),
    if_neg (not_lt.mpr hlow)]
  split
  next hnonneg =>
    have hq : ((m <<< Format.binary64.mantissaBits * 10 ^ e.toNat : ℕ) : ℚ) =
        m * 10 ^ e / 2 ^ (-(Format.binary64.mantissaBits : ℤ) + 0) := by
      rw [Nat.shiftLeft_eq, add_zero, zpow_neg, div_inv_eq_mul, zpow_natCast]
      push_cast
      rw [← zpow_natCast (10 : ℚ), Int.toNat_of_nonneg hnonneg]
      ring
    have hlarge : 2 ^ 52 ≤ m <<< Format.binary64.mantissaBits * 10 ^ e.toNat := by
      rw [Nat.shiftLeft_eq]
      calc 2 ^ 52 ≤ m * 2 ^ 53 := by omega
        _ ≤ m * 2 ^ 53 * 10 ^ e.toNat := Nat.le_mul_of_pos_right _ (by positivity)
    rw [mul_finite _ _ hq hlarge]
    rfl
  next hneg =>
    have hq : (m : ℚ) / (10 ^ (-e).toNat : ℕ) = m * 10 ^ e / 2 ^ (0 - 0 : ℤ) := by
      push_cast
      rw [← zpow_natCast, Int.toNat_of_nonneg (by omega), zpow_neg, div_one, div_inv_eq_mul]
    rw [div_finite _ _ hq]
    rfl

/-- Units of a power of ten, rounded. -/
theorem ofScientific_eq {negative : Bool}
    (hk : if negative then (k : ℤ) ≤ 2 ^ 11 + m.log2 else (k : ℤ) ≤ 2 ^ 11) :
    Float.ofScientific m negative k =
      ⟨.pack (nearest .positive (m * 10 ^ (if negative then -k else k : ℤ)))⟩ := by
  by_cases hsmall : m < 2 ^ 53 ∧ k ≤ 22
  · exact ofScientific_small hm hsmall.1 (by omega) negative
  · rw [Float.ofScientific, dif_neg hsmall]
    cases negative with
    | false =>
      change Float.ofModel (.pack (UnpackedFloat.ofScientific Format.binary64 m k)) = _
      rw [ofScientific_unpacked hm hk (by omega)]
      rfl
    | true =>
      have hneg : Int.negOfNat k = -(k : ℤ) := Int.negOfNat_eq
      change Float.ofModel (.pack (UnpackedFloat.ofScientific Format.binary64 m _)) = _
      rw [if_pos rfl, hneg, ofScientific_unpacked hm (by omega) (by simpa using hk)]
      rfl

end

end Rounding

open Rounding

namespace Decimal

/-- The number that a decimal stands for. -/
def value (d : Decimal) : ℚ :=
  d.digits * 10 ^ d.exponent

theorem width_eq {n : ℕ} (hn : 0 < n) : width n = Nat.log 10 n + 1 := by
  have hten : 1 < 10 := by decide
  apply le_antisymm
  · exact (Nat.length_toDigits_le_iff hten (Nat.succ_pos _)).mpr (Nat.lt_pow_succ_log_self hten n)
  · have hlt := (Nat.length_toDigits_le_iff (n := n) hten Nat.length_toDigits_pos).mp le_rfl
    exact Nat.log_lt_of_lt_pow hn.ne' hlt

theorem width_add_exponent {d : Decimal} (hd : 0 < d.digits) :
    (width d.digits : ℤ) + d.exponent = Int.log 10 d.value + 1 := by
  have hdigits : (0 : ℚ) < d.digits := by exact_mod_cast hd
  have hlog := log_mul_zpow (b := 10) (by decide) hdigits d.exponent
  rw [Int.log_natCast] at hlog
  rw [width_eq hd, value]
  push_cast at hlog ⊢
  omega

/-- The value that a number is read as. Beyond the range on either side, its size does not count. -/
def read (q : ℚ) : Float :=
  if q = 0 ∨ Int.log 10 q + 1 < -400 then Float.ofScientific 0 false 0
  else if 400 < Int.log 10 q + 1 then Float.ofScientific 1 false 400
  else ⟨.pack (nearest .positive q)⟩

theorem read_zero : read 0 = ⟨.pack (.zero .positive)⟩ := by
  rw [read, if_pos (.inl rfl)]
  rfl

/-- A decimal is read as its number, however its digits are written. -/
theorem toFloat_eq (d : Decimal) : d.toFloat = read d.value := by
  rcases Nat.eq_zero_or_pos d.digits with hzero | hpos
  · have hvalue : d.value = 0 := by simp [value, hzero]
    simp [toFloat, read, hzero, hvalue]
  · have hvalue : d.value ≠ 0 := by
      have hdigits : (d.digits : ℚ) ≠ 0 := by exact_mod_cast hpos.ne'
      exact mul_ne_zero hdigits (zpow_ne_zero _ (by decide))
    have hleading := width_add_exponent hpos
    have hwidth := width_eq hpos
    have hbits : Nat.log 10 d.digits ≤ d.digits.log2 := by
      rw [Nat.log2_eq_log_two]
      exact Nat.log_anti_left one_lt_two (by decide)
    simp only [toFloat, read, hleading, hvalue, hpos.ne', decide_false, Bool.false_or,
      decide_eq_true_eq, false_or]
    split
    next => rfl
    next hlow =>
      split
      next => rfl
      next hhigh =>
        have hsigned : (if decide (d.exponent < 0) then -(d.exponent.natAbs : ℤ)
            else d.exponent.natAbs) = d.exponent := by
          simp only [decide_eq_true_eq]
          split <;> omega
        rw [ofScientific_eq hpos, hsigned, value]
        simp only [decide_eq_true_eq]
        split <;> omega

theorem two_zpow_le {k : ℤ} {n : ℕ} (h : k ≤ 3 * n) : (2 : ℚ) ^ k ≤ 10 ^ (n : ℤ) := by
  calc (2 : ℚ) ^ k ≤ 2 ^ (3 * n : ℤ) := zpow_le_zpow_right₀ one_le_two h
    _ = (2 ^ (3 : ℤ)) ^ (n : ℤ) := zpow_mul 2 3 n
    _ ≤ 10 ^ (n : ℤ) := by
      rw [zpow_natCast, zpow_natCast]
      exact pow_le_pow_left₀ (by norm_num) (by norm_num) n

theorem le_two_zpow {k : ℤ} {n : ℕ} (h : -(3 * n) ≤ k) : (10 : ℚ) ^ (-(n : ℤ)) ≤ 2 ^ k := by
  rw [← neg_neg k, zpow_neg, zpow_neg 2]
  exact inv_anti₀ (zpow_pos two_pos _) (two_zpow_le (by omega))

/-- A value that binary64 has is read from any decimal that stands for it. -/
theorem read_canonical {m : ℕ} {e : ℤ} (h : Canonical m e) (hle : e ≤ 971) (hm : 0 < m) :
    read (m * 2 ^ e) = ⟨.pack (.finite .positive m e hm)⟩ := by
  have hm' : (0 : ℚ) < m := by exact_mod_cast hm
  have hpow : (0 : ℚ) < 2 ^ e := zpow_pos two_pos e
  have hpos : (0 : ℚ) < m * 2 ^ e := mul_pos hm' hpow
  have hlow : (10 : ℚ) ^ (-400 : ℤ) ≤ m * 2 ^ e := by
    calc (10 : ℚ) ^ (-400 : ℤ) ≤ 2 ^ e := le_two_zpow (n := 400) (by have := h.least; omega)
      _ ≤ m * 2 ^ e := le_mul_of_one_le_left hpow.le (by exact_mod_cast hm)
  have hhigh : (m * 2 ^ e : ℚ) < 10 ^ (400 : ℤ) := by
    calc (m * 2 ^ e : ℚ) < 2 ^ (53 : ℤ) * 2 ^ e := by
          gcongr
          exact_mod_cast h.lt
      _ = 2 ^ (53 + e) := (zpow_add₀ two_ne_zero 53 e).symm
      _ ≤ 10 ^ (400 : ℤ) := two_zpow_le (n := 400) (by omega)
  have hlog : -400 ≤ Int.log 10 (m * 2 ^ e : ℚ) :=
    (Int.zpow_le_iff_le_log (by decide) hpos).mp hlow
  have hlog' : Int.log 10 (m * 2 ^ e : ℚ) < 400 :=
    (Int.lt_zpow_iff_log_lt (by decide) hpos).mp hhigh
  rw [read, if_neg (by rintro (h | h) <;> [exact hpos.ne' h; omega]), if_neg (by omega),
    nearest_canonical h hm]

theorem strip_value (fuel : ℕ) (d : Decimal) : (strip fuel d).value = d.value := by
  induction fuel generalizing d with
  | zero => rfl
  | succ fuel ih =>
    rw [strip]
    split
    next h =>
      simp only [Bool.and_eq_true, decide_eq_true_eq] at h
      have hdigits : (d.digits : ℚ) = (d.digits / 10 : ℕ) * 10 := by
        exact_mod_cast (Nat.div_mul_cancel (Nat.dvd_of_mod_eq_zero h.1)).symm
      rw [ih, value, value, hdigits, zpow_add_one₀ (by decide)]
      ring
    next => rfl

theorem toFloat_of_candidate {x : Float} {v : Quotient} {n : ℕ} {d : Decimal}
    (h : candidate x v n = some d) : d.toFloat = x := by
  have hbits {y : Float} (hy : (y.toBits == x.toBits) = true) : y = x := by
    cases x
    cases y
    exact Float.toBits_inj.mp (eq_of_beq hy)
  rw [candidate] at h
  dsimp only at h
  split at h
  next hbelow habove =>
    rw [← Option.some.inj h]
    split
    · exact hbits habove
    · exact hbits hbelow
  next hbelow _ =>
    rw [← Option.some.inj h]
    exact hbits hbelow
  next _ habove =>
    rw [← Option.some.inj h]
    exact hbits habove
  next => cases h

/-- A power of two in the denominator goes into the exponent, with as many fives into the digits. -/
theorem value_of_two_pow (n k : ℕ) :
    (⟨n * Nat.pow 5 k, -(k : ℤ)⟩ : Decimal).value = n / 2 ^ k := by
  have hten : (10 : ℚ) ^ k = 5 ^ k * 2 ^ k := by
    rw [← mul_pow]
    norm_num
  rw [value, zpow_neg, zpow_natCast, hten, Nat.pow_eq]
  push_cast
  field_simp

theorem Quotient.ofFloat_eq {x : Float} {m : ℕ} {e : ℤ} {hm : 0 < m} {s : UnpackedFloat.Sign}
    (hx : x.toModel.unpack = .finite s m e hm) :
    Quotient.ofFloat x = ⟨m * Nat.pow 2 e.toNat, Nat.pow 2 (-e).toNat⟩ := by
  obtain ⟨-, -, hmantissa, hexponent⟩ := unpack_eq_finite_iff.mp hx
  rw [hmantissa, hexponent]
  rfl

/-- The decimal that is found for a positive finite value reads back as it. -/
theorem toFloat_shortest {x : Float} {m : ℕ} {e : ℤ} {hm : 0 < m}
    (hx : x.toModel.unpack = .finite .positive m e hm) : (shortest x).toFloat = x := by
  rw [shortest]
  split
  next d hfound =>
    obtain ⟨n, -, hcandidate⟩ := List.exists_of_findSome?_eq_some hfound
    rw [toFloat_eq, strip_value, ← toFloat_eq, toFloat_of_candidate hcandidate]
  next hnone =>
    obtain ⟨hcanonical, hle⟩ := (unpack_eq_finite_iff.mp hx).2.canonical
    have hvalue : ((m * 2 ^ e.toNat : ℕ) : ℚ) / 2 ^ (-e).toNat = m * 2 ^ e := by
      push_cast
      rw [mul_div_assoc, ← zpow_natCast, ← zpow_natCast, ← zpow_sub₀ two_ne_zero]
      congr 2
      omega
    have hlog : (Nat.pow 2 (-e).toNat).log2 = (-e).toNat := Nat.log2_two_pow
    rw [Quotient.ofFloat_eq hx]
    dsimp only
    rw [hlog, toFloat_eq, value_of_two_pow, Nat.pow_eq, hvalue, read_canonical hcanonical hle hm,
      ← hx, pack_unpack_self]

theorem digits_shortest_pos {x : Float} {m : ℕ} {e : ℤ} {hm : 0 < m}
    (hx : x.toModel.unpack = .finite .positive m e hm) : 0 < (shortest x).digits := by
  by_contra hzero
  have hvalue : (shortest x).value = 0 := by simp [value, Nat.eq_zero_of_not_pos hzero]
  have hread := toFloat_shortest hx
  rw [toFloat_eq, hvalue, read_zero] at hread
  rw [← hread] at hx
  cases (unpack_pack_zero .positive).symm.trans hx

end Decimal

end StoryPlayer
