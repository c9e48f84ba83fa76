import Mathlib

/-!
# Rounding to binary64

Every arithmetic operation on floating-point numbers ends in one rounding step. It starts from a
mantissa, its exponent and a hint about what was cut off, and these can say the same number in many
ways. Here the step is told from the number alone: the number is divided by a unit in the last
place, its whole part is taken, and the bits behind the point decide which way to round. So what a
number is rounded to does not depend on how it was computed.
-/

namespace StoryPlayer

open Float.Model UnpackedFloat

namespace Rounding

/-! ## A number in units -/

/-- A number cut down to its whole part, with the first bit behind the point and whether any other
one is set. -/
def extended (q : ℚ) : ExtendedMantissa :=
  ⟨⌊q⌋₊, ⌊2 * q⌋₊ % 2 != 0, (⌊2 * q⌋₊ : ℚ) != 2 * q⟩

theorem floor_two_mul_natCast (m : ℕ) : ⌊2 * (m : ℚ)⌋₊ = 2 * m := by
  exact_mod_cast Nat.floor_natCast (R := ℚ) (2 * m)

theorem floor_two_mul (q : ℚ) : ⌊2 * q⌋₊ / 2 = ⌊q⌋₊ := by
  rw [← Nat.floor_div_natCast]
  congr 1
  push_cast
  ring

theorem extended_natCast (m : ℕ) : extended m = ⟨m, false, false⟩ := by
  simp [extended, floor_two_mul_natCast]

theorem extended_shiftRightOne (q : ℚ) : (extended q).shiftRightOne = extended (q / 2) := by
  have htwice : 2 * (q / 2) = q := by ring
  have hdouble := floor_two_mul q
  have hhalf : ⌊q / 2⌋₊ = ⌊q⌋₊ / 2 := Nat.floor_div_ofNat q 2
  have hsticky : ((⌊2 * q⌋₊ % 2 != 0) || ((⌊2 * q⌋₊ : ℚ) != 2 * q)) = ((⌊q⌋₊ : ℚ) != q) := by
    rcases Nat.mod_two_eq_zero_or_one ⌊2 * q⌋₊ with heven | hodd
    · have hfloor : ⌊2 * q⌋₊ = 2 * ⌊q⌋₊ := by omega
      have hsame : ((2 * ⌊q⌋₊ : ℕ) : ℚ) = 2 * q ↔ (⌊q⌋₊ : ℚ) = q := by
        push_cast
        exact mul_right_inj' two_ne_zero
      simp only [heven, bne_self_eq_false, Bool.false_or]
      rw [hfloor, Bool.eq_iff_iff, bne_iff_ne, bne_iff_ne, ne_eq, hsame]
    · have hne : (⌊q⌋₊ : ℚ) ≠ q := by
        intro heq
        have hwhole := floor_two_mul_natCast ⌊q⌋₊
        rw [heq] at hwhole
        omega
      simp [hodd, hne]
  simp only [ExtendedMantissa.shiftRightOne, extended, htwice, hhalf, hsticky]

theorem extended_shiftRight (q : ℚ) (k : ℕ) : extended q >>> k = extended (q / 2 ^ k) := by
  change k.repeat ExtendedMantissa.shiftRightOne _ = _
  induction k with
  | zero => simp [Nat.repeat]
  | succ k ih => rw [Nat.repeat, ih, extended_shiftRightOne, pow_succ, div_div]

theorem ofMantissaAndAccuracy_exact (m : ℕ) :
    ExtendedMantissa.ofMantissaAndAccuracy m .exact = extended m :=
  (extended_natCast m).symm

/-- The quotient of two whole numbers, with what its remainder says about the bits behind the
point. -/
theorem ofMantissaAndAccuracy_div (n : ℕ) {d : ℕ} (hd : 0 < d) :
    ExtendedMantissa.ofMantissaAndAccuracy (n / d) (accuracyOfFraction (n % d) d) =
      extended ((n : ℚ) / d) := by
  have hmod := Nat.mod_lt n hd
  have hdiv := Nat.div_add_mod n d
  have hd' : (d : ℚ) ≠ 0 := by exact_mod_cast hd.ne'
  have htwice : 2 * ((n : ℚ) / d) = ((2 * n : ℕ) : ℚ) / d := by
    push_cast
    ring
  have hfloor : ⌊2 * ((n : ℚ) / d)⌋₊ = 2 * n / d := by rw [htwice, Nat.floor_div_eq_div]
  -- What the quotient of the doubled remainder is decides about both bits.
  have hround : 2 * n / d = 2 * (n / d) + 2 * (n % d) / d := by
    conv_lhs => rw [← hdiv, Nat.mul_add, Nat.mul_left_comm]
    exact Nat.mul_add_div hd _ _
  have hsame : ((2 * n / d : ℕ) : ℚ) = 2 * ((n : ℚ) / d) ↔ d * (2 * (n % d) / d) = 2 * (n % d) := by
    have hwhole : d * (2 * n / d) = 2 * n ↔ d * (2 * (n % d) / d) = 2 * (n % d) := by
      conv_lhs => rw [hround, Nat.mul_add, Nat.mul_left_comm, ← hdiv, Nat.mul_add, hdiv]
      exact Nat.add_left_cancel_iff
    rw [htwice, eq_div_iff hd', mul_comm, ← hwhole]
    exact_mod_cast Iff.rfl
  have hodd : (2 * n / d % 2 != 0) = (2 * (n % d) / d % 2 != 0) := by
    rw [hround, Nat.mul_add_mod]
  have hsticky : (((2 * n / d : ℕ) : ℚ) != 2 * ((n : ℚ) / d)) =
      (d * (2 * (n % d) / d) != 2 * (n % d)) := by
    rw [Bool.eq_iff_iff, bne_iff_ne, bne_iff_ne, ne_eq, hsame]
  unfold extended accuracyOfFraction
  rw [hfloor, Nat.floor_div_eq_div, hodd, hsticky]
  generalize n % d = r at hmod ⊢
  split
  next hzero => simp [hzero, ExtendedMantissa.ofMantissaAndAccuracy]
  next hne =>
    rcases lt_trichotomy (2 * r) d with hlt | heq | hgt
    · have hquot : 2 * r / d = 0 := Nat.div_eq_of_lt hlt
      rw [Nat.compare_eq_lt.mpr hlt, hquot]
      simpa [ExtendedMantissa.ofMantissaAndAccuracy] using hne
    · have hquot : 2 * r / d = 1 := by rw [heq, Nat.div_self hd]
      rw [Nat.compare_eq_eq.mpr heq, hquot]
      simp [ExtendedMantissa.ofMantissaAndAccuracy, heq]
    · have hquot : 2 * r / d = 1 := Nat.div_eq_of_lt_le (by omega) (by omega)
      rw [Nat.compare_eq_gt.mpr hgt, hquot]
      simp [ExtendedMantissa.ofMantissaAndAccuracy, hgt.ne]

/-! ## The last place -/

/-- The exponent of the last place to which a number is rounded. -/
def lastPlace (q : ℚ) : ℤ :=
  max (Int.log 2 q - 52) (-1074)

theorem targetExponent_eq (n : ℤ) : Format.binary64.targetExponent n = max (n - 53) (-1074) :=
  rfl

theorem log_mul_zpow {b : ℕ} (hb : 1 < b) {q : ℚ} (hq : 0 < q) (e : ℤ) :
    Int.log b (q * (b : ℚ) ^ e) = Int.log b q + e := by
  refine eq_of_forall_le_iff fun x => ?_
  have hb' : (0 : ℚ) < b := by exact_mod_cast Nat.zero_lt_of_lt hb
  have hpow : (0 : ℚ) < (b : ℚ) ^ e := zpow_pos hb' e
  rw [← Int.zpow_le_iff_le_log hb (mul_pos hq hpow), ← sub_le_iff_le_add,
    ← Int.zpow_le_iff_le_log hb hq, zpow_sub₀ hb'.ne', div_le_iff₀ hpow]

theorem log_div_zpow {q : ℚ} (hq : 0 < q) (e : ℤ) : Int.log 2 (q / 2 ^ e) = Int.log 2 q - e := by
  rw [div_eq_mul_inv, ← zpow_neg, sub_eq_add_neg]
  exact log_mul_zpow one_lt_two hq (-e)

theorem targetExponent_floor {q : ℚ} (hq : 0 < q) {e : ℤ} (he : e ≤ lastPlace q) :
    Format.binary64.targetExponent (totalExponent ⌊q / 2 ^ e⌋₊ e) = lastPlace q := by
  have hpos : 0 < q / 2 ^ e := div_pos hq (zpow_pos two_pos e)
  have hlog := log_div_zpow hq e
  rw [targetExponent_eq, totalExponent]
  unfold lastPlace at he ⊢
  rcases lt_or_ge (q / 2 ^ e) 1 with hlt | hge
  · have hneg : Int.log 2 (q / 2 ^ e) < 0 := by
      rw [← Int.lt_zpow_iff_log_lt one_lt_two hpos]
      simpa using hlt
    rw [Nat.floor_eq_zero.mpr hlt, Nat.log2_zero]
    omega
  · have hnat := Int.log_of_one_le_right 2 hge
    rw [← Nat.log2_eq_log_two] at hnat
    omega

theorem shiftToTargetExponent_eq {q : ℚ} (hq : 0 < q) {m : ℕ} {e : ℤ} {a : Accuracy}
    (hm : ExtendedMantissa.ofMantissaAndAccuracy m a = extended (q / 2 ^ e))
    (he : e ≤ lastPlace q) :
    shiftToTargetExponent Format.binary64 m e a =
      (extended (q / 2 ^ lastPlace q), lastPlace q) := by
  have hfloor : m = ⌊q / 2 ^ e⌋₊ := by
    have hmantissa := congrArg ExtendedMantissa.mantissa hm
    rcases a with _ | (_ | _ | _) <;> exact hmantissa
  have htarget := targetExponent_floor hq he
  rw [← hfloor] at htarget
  have hexponent : e + ((lastPlace q - e).toNat : ℤ) = lastPlace q := by omega
  rw [shiftToTargetExponent, htarget, shiftToExponent, hm, extended_shiftRight, hexponent, div_div,
    ← zpow_natCast, ← zpow_add₀ two_ne_zero, hexponent]

/-! ## The nearest value -/

/-- What a positive number is rounded to. -/
def nearest (s : Sign) (q : ℚ) : UnpackedFloat :=
  let m := (extended (q / 2 ^ lastPlace q)).roundedMantissa
  let (em, e) := shiftToTargetExponent Format.binary64 m (lastPlace q) .exact
  if h : em.mantissa = 0 then .zero s else .finite s em.mantissa e (Nat.pos_of_ne_zero h)

theorem roundWithAccuracy_eq {q : ℚ} (hq : 0 < q) (s : Sign) {m : ℕ} {e : ℤ} {a : Accuracy}
    (hm : ExtendedMantissa.ofMantissaAndAccuracy m a = extended (q / 2 ^ e))
    (he : e ≤ lastPlace q) : roundWithAccuracy Format.binary64 s m e a = nearest s q := by
  rw [roundWithAccuracy, shiftToTargetExponent_eq hq hm he]
  rfl

theorem lastPlace_of_log {q : ℚ} {e : ℤ} (h : e + 52 ≤ Int.log 2 q) : e ≤ lastPlace q :=
  le_max_of_le_left (by omega)

/-- A product of two values is rounded once. -/
theorem mul_finite {s₁ s₂ : Sign} {m₁ m₂ : ℕ} {e₁ e₂ : ℤ} (h₁ : 0 < m₁) (h₂ : 0 < m₂) {q : ℚ}
    (hq : (m₁ * m₂ : ℕ) = q / 2 ^ (e₁ + e₂)) (hlarge : 2 ^ 52 ≤ m₁ * m₂) :
    mul Format.binary64 (.finite s₁ m₁ e₁ h₁) (.finite s₂ m₂ e₂ h₂) = nearest (s₁ * s₂) q := by
  have hpow : (0 : ℚ) < 2 ^ (e₁ + e₂) := zpow_pos two_pos _
  have hpos : 0 < q := by
    have hm : (0 : ℚ) < (m₁ * m₂ : ℕ) := by exact_mod_cast Nat.mul_pos h₁ h₂
    rw [hq] at hm
    exact (div_pos_iff_of_pos_right hpow).mp hm
  refine roundWithAccuracy_eq hpos _ ?_ (lastPlace_of_log ?_)
  · rw [ofMantissaAndAccuracy_exact, hq]
  · have hlog := log_div_zpow hpos (e₁ + e₂)
    have hbits : (52 : ℤ) ≤ Nat.log 2 (m₁ * m₂) := by
      exact_mod_cast (Nat.le_log_iff_pow_le one_lt_two (Nat.mul_pos h₁ h₂).ne').mpr hlarge
    rw [← hq, Int.log_natCast] at hlog
    omega

theorem le_log_div {m n : ℕ} (hm : 0 < m) (hn : 0 < n) :
    (m.log2 : ℤ) - n.log2 - 1 ≤ Int.log 2 ((m : ℚ) / n) := by
  have hm' : (0 : ℚ) < m := by exact_mod_cast hm
  have hn' : (0 : ℚ) < n := by exact_mod_cast hn
  have hlow : (2 : ℚ) ^ (m.log2 : ℤ) ≤ m := by exact_mod_cast Nat.log2_self_le hm.ne'
  have hhigh : (n : ℚ) ≤ 2 ^ (n.log2 + 1 : ℤ) := by exact_mod_cast Nat.lt_log2_self.le
  rw [← Int.zpow_le_iff_le_log one_lt_two (div_pos hm' hn'), Nat.cast_ofNat, sub_sub,
    zpow_sub₀ two_ne_zero]
  exact div_le_div₀ hm'.le hlow hn' hhigh

/-- A quotient of two values is rounded once. -/
theorem div_finite {s₁ s₂ : Sign} {m₁ m₂ : ℕ} {e₁ e₂ : ℤ} (h₁ : 0 < m₁) (h₂ : 0 < m₂) {q : ℚ}
    (hq : (m₁ : ℚ) / m₂ = q / 2 ^ (e₁ - e₂)) :
    UnpackedFloat.div Format.binary64 (.finite s₁ m₁ e₁ h₁) (.finite s₂ m₂ e₂ h₂) =
      nearest (s₁ / s₂) q := by
  have hm₁ : (0 : ℚ) < m₁ := by exact_mod_cast h₁
  have hm₂ : (0 : ℚ) < m₂ := by exact_mod_cast h₂
  have hpos : 0 < q := by
    have hm : (0 : ℚ) < m₁ / m₂ := div_pos hm₁ hm₂
    rw [hq] at hm
    exact (div_pos_iff_of_pos_right (zpow_pos two_pos _)).mp hm
  rw [UnpackedFloat.div, divCore]
  dsimp only
  set t := min (e₁ - e₂) (Format.binary64.targetExponent (totalExponent m₁ e₁ - totalExponent m₂ e₂))
    with ht
  refine roundWithAccuracy_eq hpos _ ?_ ?_
  · have hshift : e₁ - e₂ = t + ((e₁ - e₂ - t).toNat : ℤ) := by omega
    rw [ofMantissaAndAccuracy_div _ h₂, Nat.shiftLeft_eq]
    congr 1
    push_cast
    rw [mul_div_right_comm, hq, ← zpow_natCast, div_mul_eq_mul_div, mul_div_assoc,
      ← zpow_sub₀ two_ne_zero, div_eq_mul_inv, ← zpow_neg]
    congr 2
    omega
  · have hlog := log_div_zpow hpos (e₁ - e₂)
    have hquot := le_log_div h₁ h₂
    rw [← hq] at hlog
    rw [targetExponent_eq, totalExponent, totalExponent] at ht
    unfold lastPlace
    omega

/-! ## Values that binary64 has -/

/-- A mantissa and an exponent as binary64 has them: the mantissa has as many bits as fit, unless
the exponent is the least one. -/
structure Canonical (m : ℕ) (e : ℤ) : Prop where
  lt : m < 2 ^ 53
  least : -1074 ≤ e
  normal : 2 ^ 52 ≤ m ∨ e = -1074

theorem Canonical.lastPlace_eq {m : ℕ} {e : ℤ} (h : Canonical m e) (hm : 0 < m) :
    lastPlace (m * 2 ^ e) = e := by
  have hpow : (0 : ℚ) < 2 ^ e := zpow_pos two_pos e
  have hm' : (0 : ℚ) < m := by exact_mod_cast hm
  have hlog := log_div_zpow (mul_pos hm' hpow) e
  rw [mul_div_cancel_right₀ _ hpow.ne', Int.log_natCast] at hlog
  have hhigh : Nat.log 2 m < 53 := Nat.log_lt_of_lt_pow hm.ne' h.lt
  have hleast := h.least
  unfold lastPlace
  rcases h.normal with hnormal | hleast
  · have hlow : 52 ≤ Nat.log 2 m := (Nat.le_log_iff_pow_le one_lt_two hm.ne').mpr hnormal
    omega
  · omega

/-- What binary64 has is rounded to itself. -/
theorem nearest_canonical {m : ℕ} {e : ℤ} (h : Canonical m e) (hm : 0 < m) (s : Sign) :
    nearest s (m * 2 ^ e) = .finite s m e hm := by
  have hpow : (0 : ℚ) < 2 ^ e := zpow_pos two_pos e
  have hm' : (0 : ℚ) < m := by exact_mod_cast hm
  have hplace := h.lastPlace_eq hm
  have hunits : (m * 2 ^ e : ℚ) / 2 ^ e = m := mul_div_cancel_right₀ _ hpow.ne'
  have hrounded : (extended m).roundedMantissa = m := by
    rw [extended_natCast]
    rfl
  have hshift : shiftToTargetExponent Format.binary64 m e .exact = (extended m, e) := by
    have hshift := shiftToTargetExponent_eq (mul_pos hm' hpow) (m := m) (e := e) (a := .exact)
      (by rw [ofMantissaAndAccuracy_exact, hunits]) hplace.ge
    rwa [hplace, hunits] at hshift
  rw [nearest, hplace, hunits, hrounded, hshift, extended_natCast]
  dsimp only
  rw [dif_neg hm.ne']

end Rounding

end StoryPlayer
