import StoryPlayer.Json.Reader
import StoryPlayer.Json.Writer
import StoryPlayer.Proofs.Decimal.Nearest

/-!
# Numbers that are written and read

A whole number is written in its digits, and a floating-point number with the fewest digits that
read back. The reader gives both back as they were, in front of anything that does not go on with
the number.
-/

namespace StoryPlayer.Json

/-! ## Digits -/

theorem isDigit_of_mem_ofNat {n : ℕ} {c : Char} (h : c ∈ Text.ofNat n) : isDigit c = true :=
  Nat.isDigit_of_mem_toDigits (by decide) (by decide) h

theorem natOfDigits_eq (ds : Text) : Text.natOfDigits ds = Nat.ofDigitChars 10 ds 0 := by
  rw [Nat.ofDigitChars_eq_foldl, Text.natOfDigits]
  congr 1
  funext n c
  rw [Nat.mul_comm]
  rfl

theorem natOfDigits_ofNat (n : ℕ) : Text.natOfDigits (Text.ofNat n) = n := by
  rw [natOfDigits_eq]
  exact Nat.ofDigitChars_ten_toDigits

theorem natOfDigits_append (ds es : Text) :
    Text.natOfDigits (ds ++ es) = Text.natOfDigits ds * 10 ^ es.length + Text.natOfDigits es := by
  simp only [natOfDigits_eq]
  rw [Nat.ofDigitChars_append, Nat.ofDigitChars_eq_ofDigitChars_zero, Nat.mul_comm]

theorem natOfDigits_replicate (k : ℕ) : Text.natOfDigits (List.replicate k '0') = 0 := by
  induction k with
  | zero => rfl
  | succ k ih => exact ih

theorem digitChar_ne_zero : ∀ d : Fin 10, d.val ≠ 0 → Nat.digitChar d ≠ '0' := by
  decide

theorem head?_ofNat {n : ℕ} (hn : 0 < n) : (Text.ofNat n).head? ≠ some '0' := by
  induction n using Nat.strongRecOn with
  | ind n ih =>
    rw [Text.ofNat, Nat.toDigits_eq_if (by decide)]
    split
    next hlt =>
      rw [List.head?_cons, ne_eq, Option.some.injEq]
      exact digitChar_ne_zero ⟨n, hlt⟩ hn.ne'
    next hge =>
      have hquot : 0 < n / 10 := by omega
      rw [List.head?_append_of_ne_nil _ Nat.toDigits_ne_nil]
      exact ih (n / 10) (by omega) hquot

/-- Text that does not go on with the digits of a number. -/
def Stops (rest : Text) : Prop :=
  ∀ c ∈ rest.head?, isDigit c = false

/-- Digits of which the first is zero only when it stands alone. -/
structure Whole (ds : Text) : Prop where
  digits : ∀ c ∈ ds, isDigit c = true
  ne_nil : ds ≠ []
  leading : ds = ['0'] ∨ ds.head? ≠ some '0'

theorem whole_ofNat (n : ℕ) : Whole (Text.ofNat n) := by
  refine ⟨fun c => isDigit_of_mem_ofNat, Nat.toDigits_ne_nil, ?_⟩
  rcases Nat.eq_zero_or_pos n with rfl | hpos
  · exact .inl rfl
  · exact .inr (head?_ofNat hpos)

theorem whole_zero : Whole ['0'] :=
  whole_ofNat 0

section

variable {ds rest : Text}

theorem takeWhile_digits (h : ∀ c ∈ ds, isDigit c = true) (hrest : Stops rest) :
    (ds ++ rest).takeWhile isDigit = ds ∧ (ds ++ rest).dropWhile isDigit = rest := by
  rw [List.takeWhile_append_of_pos h, List.dropWhile_append_of_pos h]
  cases rest with
  | nil => simp
  | cons c rest => simp [hrest c rfl]

theorem Whole.whole? (h : Whole ds) (hrest : Stops rest) :
    whole? (ds ++ rest) = some (ds, rest) := by
  rcases h.leading with rfl | hhead
  · rfl
  · obtain ⟨htake, hdrop⟩ := takeWhile_digits h.digits hrest
    obtain ⟨c, more, rfl⟩ := List.exists_cons_of_ne_nil h.ne_nil
    rw [List.cons_append] at htake hdrop ⊢
    unfold Json.whole?
    split
    next hzero =>
      cases hzero
      exact absurd rfl hhead
    next =>
      rw [htake, hdrop]

theorem fraction?_digits (h : ∀ c ∈ ds, isDigit c = true) (hne : ds ≠ []) (hrest : Stops rest) :
    fraction? ('.' :: (ds ++ rest)) = some (ds, rest) := by
  obtain ⟨htake, hdrop⟩ := takeWhile_digits h hrest
  obtain ⟨c, more, rfl⟩ := List.exists_cons_of_ne_nil hne
  simp only [fraction?, htake, hdrop]

end

/-! ## The parts of a number -/

/-- What stands behind the digits of a number, up to `rest`: a point with the digits behind it, or
nothing. -/
def fractionPart (fs : Text) : Text :=
  if fs = [] then [] else '.' :: fs

theorem fraction?_fractionPart {fs rest : Text} (h : ∀ c ∈ fs, isDigit c = true)
    (hrest : Stops rest) (hpoint : rest.head? ≠ some '.') :
    (fraction? (fractionPart fs ++ rest)).getD ([], fractionPart fs ++ rest) = (fs, rest) := by
  unfold fractionPart
  split
  next hnil =>
    subst hnil
    cases rest with
    | nil => rfl
    | cons c rest =>
      have hc : c ≠ '.' := fun heq => hpoint (congrArg some heq)
      simp only [List.nil_append, fraction?]
      split
      next heq => cases heq; exact absurd rfl hc
      next => rfl
  next hne =>
    rw [List.cons_append, fraction?_digits h hne hrest]
    rfl

theorem exponent?_digits {es rest : Text} (h : ∀ c ∈ es, isDigit c = true) (hne : es ≠ [])
    (hrest : Stops rest) (below : Bool) :
    exponent? ('e' :: ((if below then ['-'] else ['+']) ++ (es ++ rest))) =
      some (if below then -(Text.natOfDigits es : ℤ) else Text.natOfDigits es, rest) := by
  obtain ⟨htake, hdrop⟩ := takeWhile_digits h hrest
  obtain ⟨c, more, rfl⟩ := List.exists_cons_of_ne_nil hne
  rw [List.cons_append] at htake hdrop ⊢
  cases below <;> simp [exponent?, htake, hdrop]

theorem exponent?_eq_none {rest : Text} (h : ∀ c ∈ rest.head?, c ≠ 'e' ∧ c ≠ 'E') :
    exponent? rest = none := by
  cases rest with
  | nil => rfl
  | cons c rest =>
    have hc := h c rfl
    simp [exponent?, hc.1, hc.2]

/-- A text in front of which a number ends. -/
structure Ends (rest : Text) : Prop where
  stops : Stops rest
  point : rest.head? ≠ some '.'
  mark : ∀ c ∈ rest.head?, c ≠ 'e' ∧ c ≠ 'E'

section

variable {ds fs rest : Text} (hds : Whole ds) (hfs : ∀ c ∈ fs, isDigit c = true) (negative : Bool)
include hds

theorem number?_integer (hrest : Ends rest) :
    number? negative (ds ++ rest) = some (integer negative ds, rest) := by
  have hfraction : (fraction? rest).getD ([], rest) = ([], rest) :=
    fraction?_fractionPart (List.forall_mem_nil _) hrest.stops hrest.point
  simp only [number?, hds.whole? hrest.stops, Option.map_some, hfraction,
    exponent?_eq_none hrest.mark, if_true]

include hfs

theorem number?_fraction (hne : fs ≠ []) (hrest : Ends rest) :
    number? negative (ds ++ '.' :: (fs ++ rest)) =
      some (.ok (.float (signed negative ⟨Text.natOfDigits (ds ++ fs), -fs.length⟩)), rest) := by
  have hpoint : Stops ('.' :: (fs ++ rest)) := by
    rintro c ⟨⟩
    rfl
  simp only [number?, hds.whole? hpoint, Option.map_some, fraction?_digits hfs hne hrest.stops,
    Option.getD_some, exponent?_eq_none hrest.mark, hne, if_false]

theorem number?_exponent {es : Text} {below : Bool} (hes : ∀ c ∈ es, isDigit c = true)
    (hne : es ≠ []) (hrest : Stops rest) :
    number? negative
        (ds ++ (fractionPart fs ++ 'e' :: ((if below then ['-'] else ['+']) ++ (es ++ rest)))) =
      some (.ok (.float (signed negative ⟨Text.natOfDigits (ds ++ fs),
        (if below then -(Text.natOfDigits es : ℤ) else Text.natOfDigits es) - fs.length⟩)),
        rest) := by
  have hexponent := exponent?_digits hes hne hrest below
  set tail := 'e' :: ((if below then ['-'] else ['+']) ++ (es ++ rest)) with htail
  have hmark : Stops tail := by
    rintro c ⟨⟩
    rfl
  have hpart : Stops (fractionPart fs ++ tail) := by
    unfold fractionPart
    split
    · exact hmark
    · rintro c ⟨⟩
      rfl
  have hfraction := fraction?_fractionPart hfs hmark (by simp [htail])
  simp only [number?, hds.whole? hpart, Option.map_some, hfraction, hexponent]

end

/-! ## Written numbers -/

theorem named?_of_digit {c : Char} (hc : isDigit c = true) (rest : Text) :
    named? (c :: rest) = none ∧ named? ('-' :: c :: rest) = none := by
  have hne : ∀ d, isDigit d = false → d ≠ c := by
    rintro d hd rfl
    cases hc.symm.trans hd
  simp [named?, Text.after?, hne 'n' rfl, hne 't' rfl, hne 'f' rfl, hne 'N' rfl, hne 'I' rfl,
    hne '-' rfl]

/-- A number that starts with a digit is a value by itself and behind a minus sign. -/
theorem scalar_of_number? {ds more rest : Text} {negative : Bool} {v : Except Fault Value}
    (hds : Whole ds) (h : number? negative (ds ++ more) = some (v, rest)) :
    scalar ((if negative then ['-'] else []) ++ (ds ++ more)) = v.map fun v => (v, rest) := by
  obtain ⟨c, ds, rfl⟩ := List.exists_cons_of_ne_nil hds.ne_nil
  have hc := hds.digits c List.mem_cons_self
  obtain ⟨hnone, hminus⟩ := named?_of_digit hc (ds ++ more)
  rw [List.cons_append] at h ⊢
  cases negative with
  | true => simp [scalar, hminus, h]
  | false =>
    have hc' : c ≠ '-' := by
      rintro rfl
      cases hc
    simp only [scalar, Bool.false_eq_true, if_false, List.nil_append, hnone]
    split
    next hnumber =>
      split at hnumber
      next heq => cases heq; exact absurd rfl hc'
      next =>
        rw [h] at hnumber
        cases hnumber
        rfl
    next hnumber =>
      split at hnumber
      next heq => cases heq; exact absurd rfl hc'
      next =>
        rw [h] at hnumber
        cases hnumber

theorem ofInt_eq (n : ℤ) :
    Text.ofInt n = (if decide (n < 0) then ['-'] else []) ++ Text.ofNat n.natAbs := by
  cases n with
  | ofNat n => rfl
  | negSucc n =>
    rw [decide_eq_true (Int.negSucc_lt_zero n)]
    rfl

/-- A whole number is read as it was written, unless it has too many digits. -/
theorem scalar_ofInt (n : ℤ) {rest : Text} (hrest : Ends rest) :
    scalar (Text.ofInt n ++ rest) =
      if Limit.maxDigits < (Text.ofNat n.natAbs).length then
        .error (.beyond (.digits (Text.ofNat n.natAbs).length))
      else .ok (.int n, rest) := by
  have hnumber := number?_integer (whole_ofNat n.natAbs) (decide (n < 0)) hrest
  rw [ofInt_eq, List.append_assoc, scalar_of_number? (whole_ofNat n.natAbs) hnumber, integer]
  split
  next => rfl
  next =>
    have hsigned : (if decide (n < 0) then -(n.natAbs : ℤ) else n.natAbs) = n := by
      simp only [decide_eq_true_eq]
      split <;> omega
    dsimp only
    rw [natOfDigits_ofNat, hsigned]
    rfl

/-! ## Written floating-point numbers -/

open Decimal

/-- The text stands for a floating-point number of this size, wherever a number may end. -/
def Denotes (t : Text) (q : ℚ) : Prop :=
  ∀ negative rest, Ends rest → ∃ ds more d, t ++ rest = ds ++ more ∧ Whole ds ∧ d.value = q ∧
    number? negative (ds ++ more) = some (.ok (.float (signed negative d)), rest)

theorem denotes_positional {ds fs : Text} (hds : Whole ds) (hfs : ∀ c ∈ fs, isDigit c = true)
    (hne : fs ≠ []) :
    Denotes (ds ++ '.' :: fs) (Text.natOfDigits (ds ++ fs) * 10 ^ (-fs.length : ℤ)) := by
  intro negative rest hrest
  refine ⟨ds, _, _, ?_, hds, rfl, number?_fraction hds hfs negative hne hrest⟩
  simp

theorem denotes_scientific {ds fs es : Text} (hds : Whole ds) (hfs : ∀ c ∈ fs, isDigit c = true)
    (hes : ∀ c ∈ es, isDigit c = true) (hne : es ≠ []) (below : Bool) :
    Denotes (ds ++ (fractionPart fs ++ 'e' :: ((if below then ['-'] else ['+']) ++ es)))
      (Text.natOfDigits (ds ++ fs) * 10 ^
        ((if below then -(Text.natOfDigits es : ℤ) else Text.natOfDigits es) - fs.length)) := by
  intro negative rest hrest
  refine ⟨ds, _, _, ?_, hds, rfl, number?_exponent hds hfs negative hes hne hrest.stops⟩
  simp

/-- A decimal that is laid out stands for its value. -/
theorem denotes_layout {d : Decimal} (hd : 0 < d.digits) : Denotes (layout .stored d) d.value := by
  have hvalue := natOfDigits_ofNat d.digits
  have hwhole := whole_ofNat d.digits
  have hhead := head?_ofNat hd
  unfold layout
  generalize Text.ofNat d.digits = digits at *
  obtain ⟨c, cs, rfl⟩ := List.exists_cons_of_ne_nil hwhole.ne_nil
  have hlead : (((c :: cs).length : ℤ) - 1 + d.exponent) = cs.length + d.exponent := by simp
  dsimp only
  rw [hlead]
  generalize hn : (cs.length + d.exponent : ℤ) = lead
  have hzeros (k : ℕ) : ∀ x ∈ List.replicate k '0', isDigit x = true := by
    intro x hx
    rw [List.eq_of_mem_replicate hx]
    rfl
  split
  next hscientific =>
    have hsize := whole_ofNat lead.natAbs
    have hfirst : Whole [c] := ⟨fun x hx => hwhole.digits x (by simp_all), by simp, .inr hhead⟩
    have hes :=
      List.forall_mem_append.mpr ⟨hzeros (1 - (Text.ofNat lead.natAbs).length), hsize.digits⟩
    have hmore := (List.forall_mem_cons.mp hwhole.digits).2
    have hdenotes := denotes_scientific hfirst hmore hes
      (List.append_ne_nil_of_right_ne_nil _ hsize.ne_nil) (decide (lead < 0))
    refine (congrArg₂ Denotes ?_ ?_).mpr hdenotes
    · cases cs <;> simp [fractionPart, Style.stored]
    · rw [natOfDigits_append _ (Text.ofNat _), natOfDigits_replicate, natOfDigits_ofNat, zero_mul,
        zero_add, List.singleton_append, hvalue, value]
      congr 2
      simp only [decide_eq_true_eq]
      split <;> omega
  next hpositional =>
    split
    next hbelow =>
      have hfs := List.forall_mem_append.mpr ⟨hzeros (lead.natAbs - 1), hwhole.digits⟩
      have hdenotes := denotes_positional whole_zero hfs
        (List.append_ne_nil_of_right_ne_nil _ hwhole.ne_nil)
      refine (congrArg₂ Denotes ?_ ?_).mpr hdenotes
      · simp
      · rw [natOfDigits_append, natOfDigits_append, natOfDigits_replicate, hvalue, value,
          List.length_append, List.length_replicate]
        have hzero : Text.natOfDigits ['0'] = 0 := rfl
        rw [hzero, zero_mul, zero_mul, zero_add, zero_add]
        congr 2
        rw [List.length_cons]
        omega
    next habove =>
      set whole := lead.toNat + 1 with hwhole'
      have htail : List.drop whole (c :: cs) = [] ↔ cs.length < whole := by
        rw [List.drop_eq_nil_iff, List.length_cons, Nat.succ_le_iff]
      split
      next hnil =>
        have hlen := htail.mp hnil
        have hds : Whole (c :: cs ++ List.replicate (whole - (c :: cs).length) '0') :=
          ⟨List.forall_mem_append.mpr ⟨hwhole.digits, hzeros _⟩, by simp, .inr hhead⟩
        have hdenotes := denotes_positional hds whole_zero.digits whole_zero.ne_nil
        refine (congrArg₂ Denotes ?_ ?_).mpr hdenotes
        · rw [padRight, List.take_of_length_le hlen]
        · have hexponent : d.exponent = ((whole - (c :: cs).length : ℕ) : ℤ) := by
            rw [List.length_cons]
            omega
          have hzero : Text.natOfDigits ['0'] = 0 := rfl
          rw [natOfDigits_append, natOfDigits_append, natOfDigits_replicate, hvalue, hzero, value,
            hexponent, zpow_natCast, List.length_replicate]
          simp
      next hne =>
        have hlen := not_lt.mp (mt htail.mpr hne)
        have hds : Whole (List.take whole (c :: cs)) :=
          ⟨fun x hx => hwhole.digits x (List.mem_of_mem_take hx), by simp [hwhole'], .inr hhead⟩
        have hfs : ∀ x ∈ List.drop whole (c :: cs), isDigit x = true :=
          fun x hx => hwhole.digits x (List.mem_of_mem_drop hx)
        refine (congrArg₂ Denotes ?_ ?_).mpr (denotes_positional hds hfs hne)
        · have hfull : whole - (List.take whole (c :: cs)).length = 0 := by
            rw [List.length_take, List.length_cons]
            omega
          rw [padRight, hfull, List.replicate_zero, List.append_nil]
        · rw [List.take_append_drop, hvalue, value, List.length_drop, List.length_cons]
          congr 2
          omega

/-- A finite value is stored as its sign and a text for its size. -/
theorem exists_denotes_size {x : Float} (hx : x.isFinite = true) :
    ∃ t q, Denotes t q ∧ (∀ d : Decimal, d.value = q → d.toFloat = x.abs) ∧
      writeIn .stored x = (if x.toBits.toNat < 2 ^ 63 then [] else ['-']) ++ t := by
  have hsize := Rounding.unpack_abs hx
  have hnan : x.isNaN = false := by
    change x.toModel.unpack.isNaN = false
    rcases Rounding.unpack_cases hx with hu | ⟨m, e, hm, hu⟩ <;> rw [hu] <;> rfl
  have hinf : x.abs.isInf = false := by
    change x.abs.toModel.unpack.isInf = false
    rcases Rounding.unpack_cases hx with hu | ⟨m, e, hm, hu⟩ <;> rw [hsize, hu] <;> rfl
  simp only [writeIn, hnan, hinf, Bool.false_eq_true, if_false]
  rcases Rounding.unpack_cases hx with hu | ⟨m, e, hm, hu⟩
  · have hzero : x.abs = ⟨.pack (.zero .positive)⟩ := by
      change Float.ofModel (.pack x.toModel.unpack.abs) = _
      rw [hu]
      rfl
    have hbits : x.abs.toBits.toNat = 0 := by
      rw [hzero]
      rfl
    have hdenotes := denotes_positional whole_zero whole_zero.digits whole_zero.ne_nil
    have hvalue : Text.natOfDigits (['0'] ++ ['0']) = 0 := rfl
    rw [hvalue, Nat.cast_zero, zero_mul] at hdenotes
    refine ⟨['0', '.', '0'], 0, hdenotes, ?_, ?_⟩
    · intro d hd
      rw [toFloat_eq, hd, hzero, read_zero]
    · rw [if_pos hbits]
      rfl
  · rw [hu] at hsize
    have hne : x.abs.toBits.toNat ≠ 0 := by
      intro hbits
      have hmantissa := (Rounding.unpack_eq_finite_iff.mp hsize).2.mantissa
      change x.abs.toModel.toBits.toNat = 0 at hbits
      rw [hbits] at hmantissa
      exact hm.ne' hmantissa
    refine ⟨layout .stored (shortest x.abs), (shortest x.abs).value,
      denotes_layout (digits_shortest_pos hsize), ?_, ?_⟩
    · intro d hd
      rw [toFloat_eq, hd, ← toFloat_eq, toFloat_shortest hsize]
    · rw [if_neg hne]
      rfl

/-- A finite floating-point number is read as it was stored. -/
theorem scalar_writeFloat {x : Float} (hx : x.isFinite = true) {rest : Text} (hrest : Ends rest) :
    scalar (writeFloat x ++ rest) = .ok (.float x, rest) := by
  obtain ⟨t, q, hdenotes, hvalue, htext⟩ := exists_denotes_size hx
  rw [writeFloat, if_pos hx, htext, List.append_assoc]
  by_cases hsign : x.toBits.toNat < 2 ^ 63
  · obtain ⟨ds, more, d, hparts, hds, hd, hnumber⟩ := hdenotes false rest hrest
    have hscalar := scalar_of_number? hds hnumber
    rw [signed, if_neg (by decide), hvalue d hd, Rounding.abs_eq_self hx hsign] at hscalar
    rw [if_pos hsign, hparts]
    exact hscalar
  · obtain ⟨ds, more, d, hparts, hds, hd, hnumber⟩ := hdenotes true rest hrest
    have hscalar := scalar_of_number? hds hnumber
    rw [signed, if_pos rfl, hvalue d hd, Rounding.neg_abs_eq_self hx hsign] at hscalar
    rw [if_neg hsign, hparts]
    exact hscalar

end StoryPlayer.Json
