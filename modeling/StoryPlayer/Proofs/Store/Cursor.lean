import StoryPlayer.Store

/-!
# Moves of the cursor

Every move of the cursor leaves the commands as they are and lands on one of them. Going back passes
over cast commands only, and ends on another command or at the start.
-/

namespace StoryPlayer.Store

variable {s t : Store}

/-- The cursor is on a command, or at the start of an empty store. -/
def InBounds (s : Store) : Prop :=
  s.cursor < s.size ∨ s.cursor = 0

theorem InBounds.lt (h : s.InBounds) (hsize : s.size ≠ 0) : s.cursor < s.size := by
  rcases h with h | h
  · exact h
  · omega

theorem InBounds.lt_of_pos (h : s.InBounds) (hpos : 0 < s.cursor) : s.cursor < s.size := by
  rcases h with h | h
  · exact h
  · omega

theorem InBounds.append (h : s.InBounds) (cs : List Command) : (s.append cs).InBounds := by
  rcases h with h | h
  · left
    unfold size Store.append at *
    rw [List.length_append]
    exact Nat.lt_add_right _ h
  · exact .inr h

/-- The commands from position `i` on and before position `j` are cast commands. -/
def OnlyCast (s : Store) (i j : Nat) : Prop :=
  ∀ k c, i ≤ k → k < j → s.commands[k]? = some c → c.isCast = true

theorem OnlyCast.nil (s : Store) (i : Nat) : s.OnlyCast i i :=
  fun _ _ hik hki => absurd hki (Nat.not_lt.mpr hik)

theorem OnlyCast.congr {i j : Nat} (h : s.OnlyCast i j) (hcommands : t.commands = s.commands) :
    t.OnlyCast i j := by
  unfold OnlyCast
  rwa [hcommands]

theorem OnlyCast.append {i j k : Nat} (h : s.OnlyCast i j) (h' : s.OnlyCast j k) :
    s.OnlyCast i k := by
  intro l c hil hlk hc
  rcases Nat.lt_or_ge l j with hlj | hjl
  · exact h l c hil hlj hc
  · exact h' l c hjl hlk hc

theorem OnlyCast.single {i : Nat} {c : Command} (hc : s.commands[i]? = some c)
    (hcast : c.isCast = true) : s.OnlyCast i (i + 1) := by
  intro k d hik hki hd
  obtain rfl : i = k := by omega
  obtain rfl : c = d := Option.some.inj (hc.symm.trans hd)
  exact hcast

/-- A command that is not a cast command does not stand among cast commands. -/
theorem OnlyCast.notMem {i j k : Nat} {c : Command} (h : s.OnlyCast i j)
    (hc : s.commands[k]? = some c) (hline : c.isCast = false) (hik : i ≤ k) : j ≤ k := by
  apply Nat.le_of_not_lt
  intro hkj
  cases hline.symm.trans (h k c hik hkj hc)

theorem exists_current? (h : s.cursor < s.size) : ∃ c, s.current? = some c :=
  ⟨s.commands.get ⟨s.cursor, h⟩, List.getElem?_eq_getElem h⟩

theorem advance?_eq_some (h : s.advance? = some t) :
    s.cursor + 1 < s.size ∧ t = { s with cursor := s.cursor + 1 } := by
  unfold advance? hasNext at h
  split at h
  next hnext =>
    cases h
    exact ⟨of_decide_eq_true hnext, rfl⟩
  · cases h

theorem advance?_eq_none_iff : s.advance? = none ↔ s.size ≤ s.cursor + 1 := by
  simp [advance?, hasNext]

/-- Where the store cannot be advanced, the cursor is on the last command. -/
theorem cursor_eq_last (h : s.InBounds) (hsize : s.size ≠ 0) (hlast : s.advance? = none) :
    s.cursor + 1 = s.size := by
  have hle := advance?_eq_none_iff.mp hlast
  have hlt := h.lt hsize
  omega

theorem retreat?_eq_some (h : s.retreat? = some t) :
    0 < s.cursor ∧ t = { s with cursor := s.cursor - 1 } := by
  unfold retreat? hasPrevious at h
  split at h
  next hprevious =>
    cases h
    exact ⟨of_decide_eq_true hprevious, rfl⟩
  · cases h

theorem retreat?_eq_none_iff : s.retreat? = none ↔ s.cursor = 0 := by
  simp [retreat?, hasPrevious]

theorem moveTo?_eq_some {i : Int} (h : s.moveTo? i = some t) :
    i.toNat < s.size ∧ t = { s with cursor := i.toNat } := by
  unfold moveTo? at h
  split at h
  next hrange =>
    cases h
    exact ⟨by omega, rfl⟩
  · cases h

theorem overCast_commands (s : Store) (fuel : Nat) : (s.overCast fuel).commands = s.commands := by
  fun_induction overCast s fuel with
  | case1 => rfl
  | case2 s fuel c t ht hc hcast ih =>
    obtain ⟨-, rfl⟩ := retreat?_eq_some ht
    exact ih
  | case3 => rfl
  | case4 => rfl

theorem overCast_cursor_le (s : Store) (fuel : Nat) : (s.overCast fuel).cursor ≤ s.cursor := by
  fun_induction overCast s fuel with
  | case1 => exact Nat.le_refl _
  | case2 s fuel c t ht hc hcast ih =>
    obtain ⟨-, rfl⟩ := retreat?_eq_some ht
    exact Nat.le_trans ih (Nat.sub_le _ _)
  | case3 => exact Nat.le_refl _
  | case4 => exact Nat.le_refl _

theorem back?_eq_some (h : s.back? = some t) : t.commands = s.commands ∧ t.cursor < s.cursor := by
  unfold back? at h
  obtain ⟨u, hu, rfl⟩ := Option.map_eq_some_iff.mp h
  obtain ⟨hpos, rfl⟩ := retreat?_eq_some hu
  have hle := overCast_cursor_le { s with cursor := s.cursor - 1 } (s.cursor - 1)
  refine ⟨overCast_commands _ _, Nat.lt_of_le_of_lt hle ?_⟩
  exact Nat.sub_lt hpos Nat.one_pos

/-- Stepping back over cast commands ends on another command or at the start. -/
theorem overCast_lands {fuel : Nat} (hsize : s.cursor < s.size) (hfuel : s.cursor ≤ fuel) :
    let t := s.overCast fuel
    s.OnlyCast (t.cursor + 1) (s.cursor + 1) ∧
      (t.cursor = 0 ∨ ∃ c, t.current? = some c ∧ c.isCast = false) := by
  fun_induction overCast s fuel with
  | case1 s => exact ⟨.nil _ _, .inl (Nat.le_zero.mp hfuel)⟩
  | case2 s fuel c t ht hc hcast ih =>
    obtain ⟨hpos, rfl⟩ := retreat?_eq_some ht
    have hrest : s.cursor - 1 < s.size := Nat.lt_of_le_of_lt (Nat.sub_le _ _) hsize
    obtain ⟨hpassed, hlands⟩ := ih hrest (by dsimp only; omega)
    refine ⟨?_, hlands⟩
    replace hpassed : s.OnlyCast ((overCast _ fuel).cursor + 1) (s.cursor - 1 + 1) := hpassed
    rw [Nat.sub_add_cancel hpos] at hpassed
    exact hpassed.append (.single hc hcast)
  | case3 s fuel c t ht hc hline =>
    exact ⟨.nil _ _, .inr ⟨c, hc, Bool.eq_false_iff.mpr hline⟩⟩
  | case4 s fuel hnone =>
    obtain ⟨c, hc⟩ := exists_current? hsize
    have hstart : s.retreat? = none := by
      cases ht : s.retreat? with
      | none => rfl
      | some t => exact absurd ht (hnone c t hc)
    exact ⟨.nil _ _, .inl (retreat?_eq_none_iff.mp hstart)⟩

/-- Going back lands on a command. -/
theorem InBounds.back?_lt (h : s.InBounds) (hback : s.back? = some t) : t.cursor < t.size := by
  obtain ⟨hcommands, hlt⟩ := back?_eq_some hback
  rw [size, hcommands]
  exact Nat.lt_trans hlt (h.lt_of_pos (Nat.zero_lt_of_lt hlt))

theorem back?_of_start (h : s.cursor = 0) : s.back? = none := by
  rw [back?, retreat?_eq_none_iff.mpr h, Option.map_none]

/-- Going back passes over cast commands only, and lands on another command or at the start. -/
theorem back?_lands (h : s.InBounds) (hpos : 0 < s.cursor) :
    ∃ t, s.back? = some t ∧ t.commands = s.commands ∧ t.cursor < s.cursor ∧
      s.OnlyCast (t.cursor + 1) s.cursor ∧
      (t.cursor = 0 ∨ ∃ c, s.commands[t.cursor]? = some c ∧ c.isCast = false) := by
  let u : Store := { s with cursor := s.cursor - 1 }
  have hback : s.back? = some (u.overCast u.cursor) := by
    have hretreat : s.retreat? = some u := if_pos (decide_eq_true hpos)
    rw [back?, hretreat, Option.map_some]
  have hsize : u.cursor < u.size := Nat.lt_of_le_of_lt (Nat.sub_le _ _) (h.lt_of_pos hpos)
  obtain ⟨hpassed, hends⟩ := u.overCast_lands hsize (Nat.le_refl _)
  obtain ⟨hcommands, hlt⟩ := back?_eq_some hback
  replace hpassed : s.OnlyCast ((u.overCast u.cursor).cursor + 1) (s.cursor - 1 + 1) := hpassed
  rw [Nat.sub_add_cancel hpos] at hpassed
  unfold current? at hends
  rw [hcommands] at hends
  exact ⟨_, hback, hcommands, hlt, hpassed, hends⟩

end StoryPlayer.Store
