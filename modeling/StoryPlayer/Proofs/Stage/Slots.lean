import Mathlib.Algebra.Order.Field.Basic
import Mathlib.Algebra.Order.Field.Rat
import Mathlib.Tactic.NormNum
import StoryPlayer.Stage.Slot

/-!
# Slots mirror each other

However many members there are, those at the left come first and those at the right last, as many of
the ones as of the others, and from three members on someone stands between them. What places a
member is the ratio of the way along the list, compared as an exact fraction. Two and three members
have fixed slots, and these are where the ratio puts them as well.
-/

namespace StoryPlayer

theorem length_slots (n : Nat) : (slots n).length = n := by
  match n with
  | 0 | 1 | 2 | 3 => rfl
  | n + 4 => rw [slots, List.length_map, List.length_range]

/-! ## The ratio -/

/-- The slot at a ratio of the way: left before three tenths of it and right after seven. -/
def slotOfRatio (r : ℚ) : Slot :=
  if r < 3 / 10 then .left else if 7 / 10 < r then .right else .center

theorem slotAt_eq_slotOfRatio {last : ℕ} (h : 0 < last) (i : ℕ) :
    slotAt last i = slotOfRatio (i / last) := by
  have hlast : (0 : ℚ) < last := Nat.cast_pos.mpr h
  have hleft : (i / last : ℚ) < 3 / 10 ↔ 10 * i < 3 * last := by
    rw [div_lt_div_iff₀ hlast (by norm_num), mul_comm (i : ℚ)]
    exact_mod_cast Iff.rfl
  have hright : (7 / 10 : ℚ) < i / last ↔ 7 * last < 10 * i := by
    rw [div_lt_div_iff₀ (by norm_num) hlast, mul_comm (i : ℚ)]
    exact_mod_cast Iff.rfl
  simp only [slotAt, slotOfRatio, hleft, hright]

/-- The two thresholds lie at the same distance from the ends. -/
theorem slotAt_mirror {last i : ℕ} (h : i ≤ last) :
    slotAt last i = .left ↔ slotAt last (last - i) = .right := by
  have hsum : last - i + i = last := Nat.sub_add_cancel h
  unfold slotAt
  split_ifs <;> simp <;> omega

/-! ## All slots -/

variable {n : ℕ}

/-- The fixed slots of two and three members are those that they have by the ratio. -/
theorem slots_eq_map (h : 2 ≤ n) : slots n = (List.range n).map (slotAt (n - 1)) := by
  match n with
  | 2 | 3 => rfl
  | n + 4 => rfl

theorem getElem?_slots (h : 2 ≤ n) {i : ℕ} (hi : i < n) :
    (slots n)[i]? = some (slotAt (n - 1) i) := by
  rw [slots_eq_map h, List.getElem?_map, List.getElem?_range hi]
  rfl

theorem slots_mirror {i : ℕ} (hi : i < n) :
    (slots n)[i]? = some .left ↔ (slots n)[n - 1 - i]? = some .right := by
  by_cases h : 2 ≤ n
  · rw [getElem?_slots h hi, getElem?_slots h (by omega), Option.some_inj, Option.some_inj]
    exact slotAt_mirror (by omega)
  · obtain ⟨rfl, rfl⟩ : n = 1 ∧ i = 0 := by omega
    simp [slots]

theorem map_slotAt_range' {last s m : ℕ} {slot : Slot}
    (h : ∀ i, s ≤ i → i < s + m → slotAt last i = slot) :
    (List.range' s m).map (slotAt last) = List.replicate m slot := by
  have hall : ∀ i ∈ List.range' s m, slotAt last i = slot := fun i hi => by
    obtain ⟨hle, hlt⟩ := List.mem_range'_1.mp hi
    exact h i hle hlt
  rw [List.map_eq_replicate_iff.mpr hall, List.length_range']

/-- How many of `n` members stand at each side. -/
def sideWidth (n : ℕ) : ℕ :=
  (3 * (n - 1) + 9) / 10

theorem slots_eq_replicate (h : 2 ≤ n) :
    slots n = List.replicate (sideWidth n) .left ++
      List.replicate (n - 2 * sideWidth n) .center ++ List.replicate (sideWidth n) .right := by
  obtain ⟨w, hw⟩ : ∃ w, sideWidth n = w := ⟨_, rfl⟩
  rw [hw]
  unfold sideWidth at hw
  have hsplit (a b : ℕ) : List.range' 0 a ++ List.range' a b = List.range' 0 (a + b) := by
    have happend := @List.range'_append_1 0 a b
    rwa [Nat.zero_add] at happend
  have hrange : List.range n =
      List.range' 0 w ++ List.range' w (n - 2 * w) ++ List.range' (n - w) w := by
    have hcenter : w + (n - 2 * w) = n - w := by omega
    have hright : n - w + w = n := by omega
    rw [hsplit, hcenter, hsplit, hright, List.range_eq_range']
  have hleft : (List.range' 0 w).map (slotAt (n - 1)) = List.replicate w .left :=
    map_slotAt_range' fun i _ hi => if_pos (by omega)
  have hcenter : (List.range' w (n - 2 * w)).map (slotAt (n - 1)) =
      List.replicate (n - 2 * w) .center :=
    map_slotAt_range' fun i hi hi' => by
      rw [slotAt, if_neg (by omega), if_neg (by omega)]
  have hright : (List.range' (n - w) w).map (slotAt (n - 1)) = List.replicate w .right :=
    map_slotAt_range' fun i hi hi' => by
      rw [slotAt, if_neg (by omega), if_pos (by omega)]
  rw [slots_eq_map h, hrange, List.map_append, List.map_append, hleft, hcenter, hright]

theorem exists_slots_eq_replicate (n : ℕ) :
    ∃ m k, slots n =
      List.replicate m .left ++ List.replicate k .center ++ List.replicate m .right := by
  match n with
  | 0 => exact ⟨0, 0, rfl⟩
  | 1 => exact ⟨0, 1, rfl⟩
  | n + 2 => exact ⟨_, _, slots_eq_replicate (Nat.le_add_left 2 n)⟩

theorem center_mem_slots (h : 3 ≤ n) : .center ∈ slots n := by
  have hwidth : n - 2 * sideWidth n ≠ 0 := by
    unfold sideWidth
    omega
  rw [slots_eq_replicate (by omega)]
  simp [hwidth]

/-- However many members there are, there is a slot for each, first those at the left, then those in
the centre and last those at the right, and the two sides mirror each other. From two members on
every slot is where the ratio puts it, so that the first is at the left and the last at the right,
and from three on there is one in the centre. -/
theorem slotsOfInt_mirrored (count : ℤ) :
    ((slotsOfInt count).length : ℤ) = max count 0 ∧
      (∃ m k, slotsOfInt count =
        List.replicate m .left ++ List.replicate k .center ++ List.replicate m .right) ∧
      (∀ i : ℕ, i < count → ((slotsOfInt count)[i]? = some .left ↔
        (slotsOfInt count)[(count - 1 - i).toNat]? = some .right)) ∧
      (2 ≤ count →
        (slotsOfInt count).head? = some .left ∧ (slotsOfInt count).getLast? = some .right) ∧
      (3 ≤ count → .center ∈ slotsOfInt count) ∧
      (2 ≤ count → slotsOfInt count =
        (List.range count.toNat).map fun i : ℕ => slotOfRatio (i / (count - 1))) := by
  obtain ⟨n, hn⟩ : ∃ n, count.toNat = n := ⟨_, rfl⟩
  have hslots : slotsOfInt count = slots n := congrArg slots hn
  rw [hslots]
  refine ⟨?_, exists_slots_eq_replicate n, fun i hi => ?_, fun h => ?_, fun h => ?_, fun h => ?_⟩
  · rw [length_slots, ← hn, Int.toNat_eq_max]
  · have hlast : (count - 1 - i).toNat = n - 1 - i := by omega
    rw [hlast]
    exact slots_mirror (by omega)
  · have hlt : 2 ≤ n := by omega
    rw [List.head?_eq_getElem?, List.getLast?_eq_getElem?, length_slots,
      getElem?_slots hlt (by omega), getElem?_slots hlt (by omega)]
    have hfirst : slotAt (n - 1) 0 = .left := if_pos (by omega)
    have hlast : slotAt (n - 1) (n - 1) = .right := by
      rw [slotAt, if_neg (by omega), if_pos (by omega)]
    exact ⟨congrArg some hfirst, congrArg some hlast⟩
  · exact center_mem_slots (by omega)
  · have hlast : ((n - 1 : ℕ) : ℚ) = count - 1 := by
      have hcast : ((n - 1 : ℕ) : ℤ) = count - 1 := by omega
      exact_mod_cast congrArg (Int.cast (R := ℚ)) hcast
    rw [slots_eq_map (by omega), hn]
    refine List.map_congr_left fun i _ => ?_
    rw [slotAt_eq_slotOfRatio (by omega), hlast]

/-- A member who is just three tenths of the way, or just seven, stands in the centre. -/
theorem slotsOfInt_mirrored_eleven :
    let ss := slotsOfInt 11
    (2 : ℤ) ≤ 11 ∧ ss.head? = some .left ∧ ss.getLast? = some .right ∧ .center ∈ ss ∧
      (ss[2]? = some .left ↔ ss[8]? = some .right) ∧
      ss = (List.range 11).map (fun i : ℕ => slotOfRatio (i / (11 - 1))) ∧
      ss = List.replicate 3 .left ++ List.replicate 5 .center ++ List.replicate 3 .right := by
  obtain ⟨-, -, hmirror, hends, hcenter, hratio⟩ := slotsOfInt_mirrored 11
  have htwo : (2 : ℤ) ≤ 11 := by decide
  exact ⟨htwo, (hends htwo).1, (hends htwo).2, hcenter (by decide), hmirror 2 (by decide),
    hratio htwo, by decide⟩

end StoryPlayer
