import Mathlib.Data.List.Basic
import StoryPlayer.Json.Reader
import StoryPlayer.Json.Writer

/-!
# Spelled texts

A writer that escapes nothing but what has to be escaped leaves every other character of a text as
it is, be it a line break of Unicode. The reader reads such a text back up to the quote that closes
it, and reads nothing where no quote does. A quote of the text itself stands behind a backslash. The
writer of the library spells texts in this way.
-/

namespace StoryPlayer.Json

/-- Whether a character cannot stand in a text in quotes as it is. -/
def needsEscape (c : Char) : Bool :=
  c = '"' || c = '\\' || c.toNat < 0x20

/-- The escapes of a character, by a letter or by its code. -/
inductive Escape (c : Char) : Text → Prop
  | letter {e : Char} (he : unletter? e = some c) : Escape c ['\\', e]
  | code {a₁ a₂ a₃ a₄ : Char} (hcode : hexCode? a₁ a₂ a₃ a₄ = some c.toNat) :
    Escape c ['\\', 'u', a₁, a₂, a₃, a₄]

/-- Spellings of a text between quotes in which just those characters are escaped that have to be.
-/
inductive Spelled : Text → Text → Prop
  | nil : Spelled [] []
  | plain {c : Char} {t w : Text} (hc : needsEscape c = false) (h : Spelled t w) :
    Spelled (c :: t) (c :: w)
  | escape {c : Char} {esc t w : Text} (hc : needsEscape c = true) (hesc : Escape c esc)
    (h : Spelled t w) : Spelled (c :: t) (esc ++ w)

/-- In front of every quote stands a backslash. -/
def Guarded (t : Text) : Prop :=
  ∀ u v, t = u ++ '"' :: v → u.getLast? = some '\\'

/-! ## Characters of a spelling -/

section

variable {c : Char} {esc t u v w : Text}

theorem guarded_of_notMem (h : '"' ∉ t) : Guarded t := by
  rintro u v rfl
  simp at h

theorem Guarded.append (ht : Guarded t) (hu : Guarded u) : Guarded (t ++ u) := by
  intro x y hquote
  rcases List.append_eq_append_iff.mp hquote with ⟨front, rfl, hfront⟩ | ⟨back, hback, hrest⟩
  · have hlast := hu front y hfront
    have hne : front ≠ [] := by
      rintro rfl
      cases hlast
    rw [List.getLast?_append_of_ne_nil t hne, hlast]
  · cases back with
    | nil => cases hu [] y hrest.symm
    | cons d back =>
      obtain ⟨rfl, -⟩ := List.cons.inj hrest
      exact ht x back hback

/-- The quotes of what is left when the front is taken away are guarded unless the front ends in a
backslash. -/
theorem Guarded.of_append (h : Guarded (t ++ u)) (ht : t.getLast? ≠ some '\\') : Guarded u := by
  rintro x y rfl
  have hlast := h (t ++ x) y (List.append_assoc t x _).symm
  cases x with
  | nil =>
    rw [List.append_nil] at hlast
    exact absurd hlast ht
  | cons d x => rwa [List.getLast?_append_of_ne_nil t (List.cons_ne_nil d x)] at hlast

theorem isAscii_of_hexDigit? (h : Text.hexDigit? c ≠ none) : 0x20 ≤ c.toNat ∧ c.toNat < 0x80 := by
  unfold Text.hexDigit? at h
  simp only [Char.le_def, UInt32.le_iff_toNat_le] at h
  change 0x20 ≤ c.val.toNat ∧ c.val.toNat < 0x80
  split at h
  next hc => simp only [Char.reduceVal, UInt32.reduceToNat] at hc; omega
  split at h
  next hc => simp only [Char.reduceVal, UInt32.reduceToNat] at hc; omega
  split at h
  next hc => simp only [Char.reduceVal, UInt32.reduceToNat] at hc; omega
  next hc => exact absurd rfl h

theorem isAscii_of_unletter? {e : Char} (h : unletter? e = some c) :
    0x20 ≤ e.toNat ∧ e.toNat < 0x80 := by
  unfold unletter? at h
  split at h <;> first | decide | cases h

theorem hexDigit?_of_hexCode? {a₁ a₂ a₃ a₄ : Char} {n : Nat} (h : hexCode? a₁ a₂ a₃ a₄ = some n) :
    ∀ c ∈ [a₁, a₂, a₃, a₄], Text.hexDigit? c ≠ none := by
  simp only [hexCode?, Option.bind_eq_bind, Option.bind_eq_some_iff] at h
  obtain ⟨n₁, h₁, n₂, h₂, n₃, h₃, n₄, h₄, -⟩ := h
  simp [h₁, h₂, h₃, h₄]

theorem Escape.isAscii (h : Escape c esc) : ∀ d ∈ esc, 0x20 ≤ d.toNat ∧ d.toNat < 0x80 := by
  cases h with
  | letter he =>
    simp only [List.forall_mem_cons]
    exact ⟨by decide, isAscii_of_unletter? he, by simp⟩
  | code hcode =>
    have hdigits := hexDigit?_of_hexCode? hcode
    intro d hd
    rcases List.mem_cons.mp hd with rfl | hd
    · decide
    rcases List.mem_cons.mp hd with rfl | hd
    · decide
    · exact isAscii_of_hexDigit? (hdigits d hd)

theorem Escape.guarded (h : Escape c esc) : Guarded esc := by
  cases h with
  | @letter e he =>
    rintro u v hquote
    cases u with
    | nil => cases hquote
    | cons d u =>
      cases u with
      | nil =>
        obtain ⟨rfl, -⟩ := List.cons.inj hquote
        rfl
      | cons d' u => simp at hquote
  | code hcode =>
    have hdigits := hexDigit?_of_hexCode? hcode
    refine guarded_of_notMem fun hquote => ?_
    simp only [List.mem_cons, Char.reduceEq, false_or] at hquote
    exact absurd (by decide) (hdigits '"' (by simpa using hquote))

theorem Spelled.guarded (h : Spelled t w) : Guarded w := by
  induction h with
  | nil => exact guarded_of_notMem (by simp)
  | @plain c t w hc h ih =>
    refine Guarded.append (t := [c]) (guarded_of_notMem ?_) ih
    rw [List.mem_singleton]
    rintro rfl
    cases hc
  | escape hc hesc h ih => exact hesc.guarded.append ih

theorem Spelled.isPrintable (h : Spelled t w) : ∀ d ∈ w, 0x20 ≤ d.toNat := by
  induction h with
  | nil => simp
  | plain hc h ih =>
    rw [List.forall_mem_cons]
    refine ⟨?_, ih⟩
    simp only [needsEscape, Bool.or_eq_false_iff, decide_eq_false_iff_not] at hc
    omega
  | escape hc hesc h ih =>
    rw [List.forall_mem_append]
    exact ⟨fun d hd => (hesc.isAscii d hd).1, ih⟩

/-- Beyond ASCII a text holds what its spelling holds. -/
theorem Spelled.mem_iff (h : Spelled t w) {d : Char} (hd : 0x80 ≤ d.toNat) : d ∈ w ↔ d ∈ t := by
  induction h with
  | nil => exact Iff.rfl
  | plain hc h ih => rw [List.mem_cons, List.mem_cons, ih]
  | @escape c esc t w hc hesc h ih =>
    have hesc' : d ∉ esc := fun hmem => by
      have hlt := (hesc.isAscii d hmem).2
      omega
    have hc' : d ≠ c := by
      rintro rfl
      simp only [needsEscape, Bool.or_eq_true, decide_eq_true_eq] at hc
      rcases hc with (rfl | rfl) | hc
      · revert hd; decide
      · revert hd; decide
      · omega
    simp [hesc', hc', ih]

/-- A spelling is a spelling in front of any character beyond ASCII and behind it. -/
theorem Spelled.exists_cut (h : Spelled t w) (p : Char → Bool)
    (hp : ∀ d, 0x20 ≤ d.toNat → p d = true → 0x80 ≤ d.toNat) (hw : ∃ d ∈ w, p d = true) :
    ∃ d t₁ t₂ w₁ w₂, w = w₁ ++ d :: w₂ ∧ p d = true ∧ (∀ e ∈ w₁, p e = false) ∧ Spelled t₁ w₁ ∧
      Spelled t₂ w₂ := by
  induction h with
  | nil => simp at hw
  | @plain c t w hc h ih =>
    cases hpc : p c with
    | true => exact ⟨c, [], t, [], w, rfl, hpc, by simp, .nil, h⟩
    | false =>
      have hw' : ∃ d ∈ w, p d = true := by simpa [hpc] using hw
      obtain ⟨d, t₁, t₂, w₁, w₂, rfl, hd, hw₁, h₁, h₂⟩ := ih hw'
      refine ⟨d, c :: t₁, t₂, c :: w₁, w₂, rfl, hd, ?_, .plain hc h₁, h₂⟩
      rw [List.forall_mem_cons]
      exact ⟨hpc, hw₁⟩
  | @escape c esc t w hc hesc h ih =>
    have hpesc : ∀ e ∈ esc, p e = false := by
      intro e he
      refine eq_false_of_ne_true fun hpe => ?_
      obtain ⟨hlow, hhigh⟩ := hesc.isAscii e he
      have hbeyond := hp e hlow hpe
      omega
    have hw' : ∃ d ∈ w, p d = true := by
      obtain ⟨d, hd, hpd⟩ := hw
      rcases List.mem_append.mp hd with hd | hd
      · cases (hpesc d hd).symm.trans hpd
      · exact ⟨d, hd, hpd⟩
    obtain ⟨d, t₁, t₂, w₁, w₂, rfl, hd, hw₁, h₁, h₂⟩ := ih hw'
    refine ⟨d, c :: t₁, t₂, esc ++ w₁, w₂, (List.append_assoc _ _ _).symm, hd, ?_,
      .escape hc hesc h₁, h₂⟩
    rw [List.forall_mem_append]
    exact ⟨hpesc, hw₁⟩

end

/-! ## Reading texts -/

section

variable {c : Char} {esc o t w rest : Text}

theorem readText_plain (hc : needsEscape c = false) (o rest : Text) :
    readText o (c :: rest) = (readText o rest).cons c := by
  simp only [needsEscape, Bool.or_eq_false_iff, decide_eq_false_iff_not] at hc
  rw [readText.eq_def]
  split <;> grind

/-- A control character is never read as it is. -/
theorem readText_control (hc : c.toNat < 0x20) (o rest : Text) :
    readText o (c :: rest) = .error (.malformed .control (c :: rest)) := by
  have hquote : c ≠ '"' := by
    rintro rfl
    revert hc
    decide
  have hback : c ≠ '\\' := by
    rintro rfl
    revert hc
    decide
  rw [readText.eq_def]
  split <;> grind

/-- What has to be escaped lies in front of the codes of halves. -/
theorem ofCode_toNat_of_needsEscape (hc : needsEscape c = true) :
    Text.isHighHalf c.toNat = false ∧ Text.ofCode c.toNat = c := by
  have hlow : c.toNat < 0xD800 := by
    simp only [needsEscape, Bool.or_eq_true, decide_eq_true_eq] at hc
    rcases hc with (rfl | rfl) | hc
    · decide
    · decide
    · omega
  have hhigh : Text.isHighHalf c.toNat = false := by
    simp only [Text.isHighHalf, Bool.and_eq_false_iff, decide_eq_false_iff_not]
    omega
  have hlowHalf : Text.isLowHalf c.toNat = false := by
    simp only [Text.isLowHalf, Bool.and_eq_false_iff, decide_eq_false_iff_not]
    omega
  refine ⟨hhigh, ?_⟩
  unfold Text.ofCode
  rw [hhigh, hlowHalf, if_neg (by decide), c.ofNat_toNat]

theorem readText_letter {e : Char} (he : unletter? e = some c) (o rest : Text) :
    readText o ('\\' :: e :: rest) = (readText o rest).cons c := by
  have hu : e ≠ 'u' := by
    rintro rfl
    cases he
  rw [readText.eq_def]
  split <;> grind

theorem Escape.readText_cons (hesc : Escape c esc) (hc : needsEscape c = true) (o : Text)
    (next : Char) (rest : Text) :
    readText o (esc ++ next :: rest) = (readText o (next :: rest)).cons c := by
  obtain ⟨hhalf, hchar⟩ := ofCode_toNat_of_needsEscape hc
  cases hesc with
  | letter he => exact readText_letter he o (next :: rest)
  | @code a₁ a₂ a₃ a₄ hcode =>
    change readText o ('\\' :: 'u' :: a₁ :: a₂ :: a₃ :: a₄ :: next :: rest) = _
    rw [readText.eq_def]
    split <;> grind

/-- A code is read only in front of another character, and so is every text. -/
theorem Escape.readText_nil (hesc : Escape c esc) (o : Text) :
    ∃ f, readText o esc = .error f := by
  cases hesc with
  | letter he =>
    rw [readText_letter he, readText]
    exact ⟨_, rfl⟩
  | code hcode =>
    rw [readText.eq_def]
    split <;> grind

/-- A spelled text is read back up to the quote that closes it. -/
theorem Spelled.readText_closed (h : Spelled t w) (o rest : Text) :
    readText o (w ++ '"' :: rest) = .ok (t, rest) := by
  induction h with
  | nil => simp [readText]
  | plain hc h ih =>
    rw [List.cons_append, readText_plain hc, ih]
    rfl
  | @escape c esc t w hc hesc h ih =>
    obtain ⟨next, more, hnext⟩ :=
      List.exists_cons_of_ne_nil (List.append_ne_nil_of_right_ne_nil w (List.cons_ne_nil '"' rest))
    rw [List.append_assoc, hnext, hesc.readText_cons hc, ← hnext, ih]
    rfl

/-- A spelled text that nothing closes is not read. -/
theorem Spelled.readText_open (h : Spelled t w) (hrest : ∃ f, readText o rest = .error f) :
    ∃ f, readText o (w ++ rest) = .error f := by
  induction h with
  | nil => exact hrest
  | plain hc h ih =>
    obtain ⟨f, hf⟩ := ih
    rw [List.cons_append, readText_plain hc, hf]
    exact ⟨f, rfl⟩
  | escape hc hesc h ih =>
    obtain ⟨f, hf⟩ := ih
    rw [List.append_assoc]
    cases hnext : _ ++ rest with
    | nil =>
      rw [List.append_nil]
      exact hesc.readText_nil o
    | cons next more =>
      rw [hesc.readText_cons hc, ← hnext, hf]
      exact ⟨f, rfl⟩

theorem exists_of_cons_eq_ok {r : Read Text} (h : r.cons c = .ok (w, rest)) :
    ∃ w', r = .ok (w', rest) := by
  cases r with
  | error f => cases h
  | ok found =>
    cases h
    exact ⟨_, rfl⟩

/-- A text that is read was closed by a quote. -/
theorem mem_of_readText_eq_ok (h : readText o t = .ok (w, rest)) : '"' ∈ t := by
  fun_induction readText o t generalizing w <;> try cases h
  case case2.refl => exact List.mem_cons_self
  -- Every other case reads what is left behind a character or an escape.
  all_goals
    obtain ⟨w', hrest⟩ := exists_of_cons_eq_ok h
    grind

theorem spelled_self (ht : t.any needsEscape = false) : Spelled t t := by
  induction t with
  | nil => exact .nil
  | cons c t ih =>
    rw [List.any_cons, Bool.or_eq_false_iff] at ht
    exact .plain ht.1 (ih ht.2)

end

/-! ## Writing texts -/

theorem hex_control : ∀ n : Fin 32,
    Text.hex 4 n = ['0', '0', if n.val < 16 then '0' else '1', Nat.digitChar (n.val % 16)] ∧
      hexCode? '0' '0' (if n.val < 16 then '0' else '1') (Nat.digitChar (n.val % 16)) =
        some n.val := by
  decide

section

variable {c : Char} {t : Text}

theorem isHalf_of_lt (hc : c.toNat < 0x20) : Text.isHalf c = false := by
  have hlow : c.toNat - Text.halfPlane = 0 := by unfold Text.halfPlane; omega
  unfold Text.isHalf
  rw [hlow]
  rfl

theorem escape_of_needsEscape (hc : needsEscape c = true) : Escape c (escape c) := by
  unfold escape
  split
  iterate 7 exact .letter rfl
  next hquote hback _ _ _ _ _ =>
    simp only [needsEscape, Bool.or_eq_true, decide_eq_true_eq] at hc
    have hlow : c.toNat < 0x20 := hc.resolve_left fun hc => hc.elim hquote hback
    obtain ⟨hhex, hcode⟩ := hex_control ⟨c.toNat, hlow⟩
    have hcodeOf : Text.codeOf c = c.toNat := by
      unfold Text.codeOf
      rw [isHalf_of_lt hlow]
      rfl
    rw [if_pos (by simp [hlow]), hcodeOf]
    dsimp only at hhex
    rw [hhex]
    exact .code hcode

theorem escape_eq_self (hc : needsEscape c = false) (hwhole : Text.isHalf c = false) :
    escape c = [c] := by
  simp only [needsEscape, Bool.or_eq_false_iff, decide_eq_false_iff_not] at hc
  unfold escape
  split
  case h_8 => simp [hc.2, hwhole]
  all_goals revert hc; decide

/-- A written text is spelled, unless halves of surrogate pairs have to be escaped in it. -/
theorem spelled_escape (h : Text.isWhole t = true) : Spelled t (t.flatMap escape) := by
  induction t with
  | nil => exact .nil
  | cons c t ih =>
    simp only [Text.isWhole, List.all_cons, Bool.and_eq_true, Bool.not_eq_true'] at h
    rw [List.flatMap_cons]
    cases hc : needsEscape c with
    | false =>
      rw [escape_eq_self hc h.1]
      exact .plain hc (ih h.2)
    | true => exact .escape hc (escape_of_needsEscape hc) (ih h.2)

end

end StoryPlayer.Json
