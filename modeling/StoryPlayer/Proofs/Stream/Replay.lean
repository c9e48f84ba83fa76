import StoryPlayer.Proofs.Session.Pending

/-!
# A script that is replayed

A replay cuts a script into pieces of one size and sends them one after another, so it delivers the
script, and it takes as many pauses as there are pieces.
-/

namespace StoryPlayer.Source

theorem cut_delivers {size : Nat} (hsize : 0 < size) {t sent rest : Text} (ht : t = sent ++ rest)
    {fuel : Nat} (hfuel : rest.length ≤ fuel) :
    Delivers t sent ((cut size fuel rest).map (⟨.chunk, ·⟩) ++ [⟨.done, t⟩]) := by
  have hdone : Delivers t sent [⟨.done, t⟩] := .done ⟨rest, ht.symm⟩
  induction fuel generalizing sent rest with
  | zero => exact hdone
  | succ fuel ih =>
    unfold cut
    split
    · exact hdone
    next hsome =>
      have hpos := List.length_pos_iff.mpr hsome
      refine .chunk _ (ih ?_ ?_ (.done ⟨rest.drop size, ?_⟩))
      · rw [ht, List.append_assoc, List.take_append_drop]
      · rw [List.length_drop]
        omega
      · rw [ht, List.append_assoc, List.take_append_drop]

theorem cut_length {size : Nat} (hsize : 0 < size) {t : Text} {fuel : Nat}
    (hfuel : t.length ≤ fuel) : (cut size fuel t).length = (t.length + (size - 1)) / size := by
  have hnone : (0 + (size - 1)) / size = 0 := Nat.div_eq_of_lt (by omega)
  induction fuel generalizing t with
  | zero =>
    rw [Nat.le_zero.mp hfuel, hnone]
    rfl
  | succ fuel ih =>
    unfold cut
    split
    next heq =>
      subst heq
      exact hnone.symm
    next hsome =>
      have hpos := List.length_pos_iff.mpr hsome
      rw [List.length_cons, ih (by rw [List.length_drop]; omega), List.length_drop]
      by_cases hle : size ≤ t.length
      · have hmore : t.length + (size - 1) = t.length - size + (size - 1) + size := by omega
        rw [hmore, Nat.add_div_right _ hsize]
      · have hlast : t.length - size = 0 := by omega
        have hone : t.length + (size - 1) = t.length - 1 + size := by omega
        rw [hlast, hnone, hone, Nat.add_div_right _ hsize, Nat.div_eq_of_lt (by omega)]

/-- A replay delivers its script. -/
theorem replay_delivers (t : Text) {size : Nat} (hsize : 0 < size) (pause : Int) :
    Delivers t [] (replay t size pause).records := by
  have hcut := cut_delivers hsize (List.nil_append t).symm (Nat.le_refl _)
  simpa [replay, records, Function.comp_def] using hcut

/-- A replay takes a pause for every piece. -/
theorem replay_duration (t : Text) {size : Nat} (hsize : 0 < size) (pause : Int) :
    (replay t size pause).duration = (t.length + (size - 1)) / size * pause.toNat := by
  have hpauses : durationOf (if pause = 0 then [] else [pause]) = pause.toNat := by
    split
    next hzero =>
      rw [hzero]
      rfl
    · simp [durationOf]
  have hdone : durationOf [] = 0 := rfl
  rw [← cut_length hsize (Nat.le_refl t.length)]
  unfold duration durationOfAll replay
  simp [Function.comp_def, hpauses, hdone]

end StoryPlayer.Source
