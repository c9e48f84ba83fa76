import StoryPlayer.Proofs.Script.RoundTrip
import StoryPlayer.Stage.Follow

/-!
# What is on stage

A stage may render the commands of a script in another order than they stand in. Who is on stage is
then said by every dialogue and action anew. The place is not: a line read before any location says
nothing about it, and what a later command has set is still there. `Stage.Shows` says how far the
place on stage can differ from that of the script.
-/

namespace StoryPlayer

theorem ProperFrom.isProper {s : Scene} {cs : List Command} (h : ProperFrom s cs) {i : Nat}
    {c : Command} (hc : cs[i]? = some c) : c.IsProper (sceneBehind s (cs.take i)) := by
  obtain ⟨hlt, rfl⟩ := List.getElem?_eq_some_iff.mp hc
  apply h (cs.take i) cs[i] (cs.drop (i + 1))
  rw [List.getElem_cons_drop, List.take_append_drop]

theorem place?_of_snapshot? {c : Command} {scene : Scene} (h : c.snapshot? = some scene) :
    c.place? = none := by
  cases c with
  | location | cast => cases h
  | dialogue | action => rfl

theorem location_behind_singleton (s : Scene) {c : Command} (h : c.place? = none) :
    (sceneBehind s [c]).location = s.location := by
  simp [sceneBehind, h]

theorem sceneBehind_take_add_one (s : Scene) {cs : List Command} {i : Nat} {c : Command}
    (hc : cs[i]? = some c) :
    sceneBehind s (cs.take (i + 1)) = sceneBehind (sceneBehind s (cs.take i)) [c] := by
  rw [List.take_add_one, hc, sceneBehind_append]
  rfl

/-- A dialogue or action leaves the story at the place of its snapshot. -/
theorem ProperFrom.location_snapshot {s scene : Scene} {cs : List Command} (h : ProperFrom s cs)
    {i : Nat} {c : Command} (hc : cs[i]? = some c) (hscene : c.snapshot? = some scene) :
    (sceneBehind s (cs.take (i + 1))).location = scene.location := by
  rw [sceneBehind_take_add_one s hc, location_behind_singleton _ (place?_of_snapshot? hscene),
    (h.isProper hc).snapshot hscene]

/-- Further on in a script the place is the same, or it is that of a location in between. -/
theorem location_behind_take (cs : List Command) {m n : Nat} (h : m ≤ n) :
    (sceneBehind .empty (cs.take n)).location = (sceneBehind .empty (cs.take m)).location ∨
      ∃ l place colours, m ≤ l ∧ l < n ∧ cs[l]? = some (.location place colours) ∧
        (sceneBehind .empty (cs.take n)).location = some place := by
  induction n, h using Nat.le_induction with
  | base => exact .inl rfl
  | succ n hle ih =>
    have hkept (hplace : (cs[n]?.bind Command.place?) = none) :
        (sceneBehind .empty (cs.take (n + 1))).location =
          (sceneBehind .empty (cs.take n)).location := by
      rw [List.take_add_one, sceneBehind_append]
      cases hc : cs[n]? with
      | none => rfl
      | some c =>
        rw [hc, Option.bind_some] at hplace
        exact location_behind_singleton _ hplace
    by_cases hplace : (cs[n]?.bind Command.place?) = none
    · rw [hkept hplace]
      rcases ih with hsame | ⟨l, place, colours, hl, hln, hlocation⟩
      · exact .inl hsame
      · exact .inr ⟨l, place, colours, hl, Nat.lt_succ_of_lt hln, hlocation⟩
    · cases hc : cs[n]? with
      | none => simp [hc] at hplace
      | some c =>
        cases c with
        | location place colours =>
          refine .inr ⟨n, place, colours, hle, Nat.lt_succ_self n, hc, ?_⟩
          rw [List.take_add_one, hc, sceneBehind_append]
          rfl
        | cast | dialogue | action => simp [hc, Command.place?] at hplace

namespace Stage

theorem follow_append (s : Stage) (cues more : List Cue) :
    (s.follow (cues ++ more)).1 = ((s.follow cues).1.follow more).1 := by
  induction cues generalizing s with
  | nil => rfl
  | cons c cues ih => exact ih (s.act c).1

theorem follow_displays (s : Stage) (ds : List Display) :
    (s.follow (ds.map .display)).1 = s := by
  induction ds with
  | nil => rfl
  | cons d ds ih => exact ih

@[simp]
theorem render_hidden (s : Stage) (c : Command) : (s.render c).1.hidden = s.hidden := by
  cases c with
  | location place colours =>
    unfold render
    dsimp only
    split <;> rfl
  | cast | dialogue | action => rfl

theorem follow_hidden (s : Stage) (cues : List Cue) : (s.follow cues).1.hidden = s.hidden := by
  induction cues generalizing s with
  | nil => rfl
  | cons c cues ih =>
    have hact : (s.act c).1.hidden = s.hidden := by
      cases c with
      | display d => rfl
      | render c => exact s.render_hidden c
      | reset => rfl
    exact (ih (s.act c).1).trans hact

theorem render_location (s : Stage) (place : Text) (colours : List Text) :
    (s.render (.location place colours)).1.scene.location = some place := by
  unfold render
  dsimp only
  split
  next h => exact h
  · rfl

/-- A dialogue or action puts those on stage whom its snapshot has, but for the hidden ones. Its
place is put on stage where there is one. -/
theorem render_snapshot (s : Stage) {c : Command} {scene : Scene} (h : c.snapshot? = some scene) :
    (s.render c).1.scene = ⟨moved s.scene.location scene.location, s.visible scene.cast⟩ := by
  cases c with
  | dialogue speaker text mood snapshot =>
    cases h
    rfl
  | action text snapshot =>
    cases h
    rfl
  | location | cast => cases h

/-- The stage shows the place behind the first `n` commands of a script or, where nothing has
replaced it, that of a location further on that was reached. -/
def Shows (s : Stage) (cs : List Command) (reached : Nat → Prop) (n : Nat) : Prop :=
  s.scene.location = (sceneBehind .empty (cs.take n)).location ∨
    ∃ l place colours, n ≤ l ∧ reached l ∧ cs[l]? = some (.location place colours) ∧
      s.scene.location = some place

section

variable {s t : Stage} {cs : List Command} {reached reached' : Nat → Prop} {n i : Nat}
  {c : Command}

theorem Shows.mono (h : s.Shows cs reached n) (hreached : ∀ l, reached l → reached' l) :
    s.Shows cs reached' n := by
  refine h.imp_right ?_
  rintro ⟨l, place, colours, hl, hreach, hlocation⟩
  exact ⟨l, place, colours, hl, hreached l hreach, hlocation⟩

/-- A command without a place leaves on stage what is there. When it stands further back, that may
be the place of one that was passed. -/
theorem Shows.keep (h : s.Shows cs reached n) (hi : i ≤ n) (hc : cs[i]? = some c)
    (hreached : ∀ l, reached l ∨ l < n → reached' l) (hplace : c.place? = none)
    (ht : t.scene.location = s.scene.location) : t.Shows cs reached' (i + 1) := by
  have hnot : ∀ place colours, cs[i]? ≠ some (.location place colours) := by
    intro place colours heq
    cases hc.symm.trans heq
    cases hplace
  unfold Shows
  rw [ht]
  rcases h with h | ⟨l, place, colours, hl, hreach, hlocation, h⟩
  · have hbehind : (sceneBehind .empty (cs.take (i + 1))).location =
        (sceneBehind .empty (cs.take i)).location := by
      rcases location_behind_take cs (Nat.le_succ i) with heq | ⟨l, place, colours, hl, hli, hat, -⟩
      · exact heq
      · cases Nat.le_antisymm hl (Nat.le_of_lt_succ hli)
        exact absurd hat (hnot place colours)
    rw [h, hbehind]
    rcases location_behind_take cs hi with heq | ⟨l, place, colours, hl, hln, hat, heq⟩
    · exact .inl heq
    · have hne : l ≠ i := by
        rintro rfl
        exact hnot place colours hat
      exact .inr ⟨l, place, colours, by omega, hreached l (.inr hln), hat, heq⟩
  · have hne : l ≠ i := by
      rintro rfl
      exact hnot place colours hlocation
    exact .inr ⟨l, place, colours, by omega, hreached l (.inl hreach), hlocation, h⟩

/-- Rendering the next command of a script, or one further back, keeps what the stage shows in step
with the script. -/
theorem Shows.render (h : s.Shows cs reached n) (hproper : ProperFrom .empty cs) (hi : i ≤ n)
    (hc : cs[i]? = some c) (hreached : ∀ l, reached l ∨ l < n → reached' l) :
    (s.render c).1.Shows cs reached' (i + 1) := by
  have htake := sceneBehind_take_add_one .empty hc
  -- Only a snapshot with a place that is not empty is put on stage.
  have hspoken (hsnapshot : c.snapshot? = some (sceneBehind .empty (cs.take i))) :
      (s.render c).1.Shows cs reached' (i + 1) := by
    have hplace := place?_of_snapshot? hsnapshot
    have hscene := congrArg Scene.location (s.render_snapshot hsnapshot)
    dsimp only at hscene
    cases hlocation : (sceneBehind .empty (cs.take i)).location with
    | none =>
      rw [hlocation] at hscene
      exact h.keep hi hc hreached hplace hscene
    | some place =>
      rw [hlocation] at hscene
      cases place with
      | nil => exact h.keep hi hc hreached hplace hscene
      | cons a place =>
        left
        rw [hscene, htake, location_behind_singleton _ hplace, hlocation]
        rfl
  cases hproper.isProper hc with
  | location hplace =>
    left
    rw [render_location, htake]
    rfl
  | cast hmembers => exact h.keep hi hc hreached rfl rfl
  | dialogue => exact hspoken rfl
  | action => exact hspoken rfl

end

end Stage

end StoryPlayer
