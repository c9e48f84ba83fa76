import StoryPlayer.Proofs.Store.Cursor

/-!
# Histories of a store

Whatever is done to a store, the cursor stays on one of its commands as long as there are any. While
a story only grows and is only followed, the commands that become current are those from the first
one on, in their order, and none of them twice.
-/

namespace StoryPlayer.Store

/-- What can be done to a store. -/
inductive Op
  | append (cs : List Command)
  | replace (cs : List Command)
  | clear
  | reset
  | advance
  | retreat
  | setCursor (i : Int)

/-- Whether an operation lets the story grow or follows it. -/
def Op.isOnward : Op → Bool
  | .append _ | .advance => true
  | _ => false

/-- The store behind a move that may have failed, and whether it succeeded. -/
def tried (s : Store) (moved : Option Store) : Store × Option Bool :=
  (moved.getD s, some moved.isSome)

/-- The store behind an operation, and for one that may fail whether it succeeded. -/
def perform (s : Store) : Op → Store × Option Bool
  | .append cs => (s.append cs, none)
  | .replace cs => (ofList cs, none)
  | .clear => (empty, none)
  | .reset => (s.rewind, none)
  | .advance => s.tried s.advance?
  | .retreat => s.tried s.retreat?
  | .setCursor i => s.tried (s.moveTo? i)

/-- The store behind operations. -/
def after (s : Store) (ops : List Op) : Store :=
  ops.foldl (fun s op => (s.perform op).1) s

/-- The commands that moves make current. -/
def visits (s : Store) : List Op → List Command
  | [] => []
  | op :: ops =>
    let (t, moved) := s.perform op
    (if moved = some true then t.current?.toList else []) ++ t.visits ops

variable {s t : Store}

/-! ## Moves -/

theorem tried_eq_true {moved : Option Store} (h : (s.tried moved).2 = some true) :
    ∃ t, moved = some t ∧ s.tried moved = (t, some true) := by
  cases moved with
  | none => cases h
  | some t => exact ⟨t, rfl, rfl⟩

theorem tried_eq_false {moved : Option Store} (h : (s.tried moved).2 = some false) :
    (s.tried moved).1 = s := by
  cases moved with
  | none => rfl
  | some t => cases h

theorem tried_isSome_iff {moved : Option Store} : (s.tried moved).2 = some true ↔ moved.isSome :=
  Option.some_inj

/-- An operation that fails changes nothing. -/
theorem perform_of_false {op : Op} (h : (s.perform op).2 = some false) : (s.perform op).1 = s := by
  cases op with
  | append cs => cases h
  | replace cs => cases h
  | clear => cases h
  | reset => cases h
  | advance => exact tried_eq_false h
  | retreat => exact tried_eq_false h
  | setCursor i => exact tried_eq_false h

theorem advance?_eq (h : s.cursor + 1 < s.size) :
    s.advance? = some { s with cursor := s.cursor + 1 } :=
  if_pos (decide_eq_true h)

theorem retreat?_eq (h : 0 < s.cursor) : s.retreat? = some { s with cursor := s.cursor - 1 } :=
  if_pos (decide_eq_true h)

/-- Going back undoes going on. -/
theorem retreat?_of_advance? (h : s.advance? = some t) : t.retreat? = some s := by
  obtain ⟨-, rfl⟩ := advance?_eq_some h
  exact retreat?_eq (Nat.succ_pos _)

/-- Going on undoes going back. -/
theorem advance?_of_retreat? (hs : s.InBounds) (h : s.retreat? = some t) : t.advance? = some s := by
  obtain ⟨hpos, rfl⟩ := retreat?_eq_some h
  have hcursor : s.cursor - 1 + 1 = s.cursor := Nat.sub_add_cancel hpos
  have hnext : s.cursor - 1 + 1 < s.size := hcursor ▸ hs.lt_of_pos hpos
  rw [advance?_eq (by exact hnext)]
  exact congrArg (fun i => some { s with cursor := i }) hcursor

theorem advance?_isSome_iff : s.advance?.isSome ↔ s.cursor + 1 < s.size := by
  rw [Option.isSome_iff_ne_none, ne_eq, advance?_eq_none_iff, Nat.not_le]

theorem retreat?_isSome_iff : s.retreat?.isSome ↔ 0 < s.cursor := by
  rw [Option.isSome_iff_ne_none, ne_eq, retreat?_eq_none_iff, Nat.pos_iff_ne_zero]

theorem moveTo?_isSome_iff {i : Int} : (s.moveTo? i).isSome ↔ 0 ≤ i ∧ i < s.size := by
  simp [moveTo?]

/-! ## Bounds -/

theorem InBounds.current?_eq_none_iff (h : s.InBounds) : s.current? = none ↔ s.commands = [] := by
  rw [current?, List.getElem?_eq_none_iff, ← List.length_eq_zero_iff]
  unfold InBounds size at h
  omega

theorem InBounds.tried {moved : Option Store} (h : s.InBounds)
    (hmoved : ∀ t, moved = some t → t.InBounds) : (s.tried moved).1.InBounds := by
  cases moved with
  | none => exact h
  | some t => exact hmoved t rfl

theorem InBounds.perform (h : s.InBounds) (op : Op) : (s.perform op).1.InBounds := by
  cases op with
  | append cs => exact h.append cs
  | replace cs => exact .inr rfl
  | clear => exact .inr rfl
  | reset => exact .inr rfl
  | advance =>
    refine h.tried fun t ht => ?_
    obtain ⟨hlt, rfl⟩ := advance?_eq_some ht
    exact .inl hlt
  | retreat =>
    refine h.tried fun t ht => ?_
    obtain ⟨hpos, rfl⟩ := retreat?_eq_some ht
    exact .inl (Nat.lt_of_le_of_lt (Nat.sub_le _ _) (h.lt_of_pos hpos))
  | setCursor i =>
    refine h.tried fun t ht => ?_
    obtain ⟨hlt, rfl⟩ := moveTo?_eq_some ht
    exact .inl hlt

theorem InBounds.after (h : s.InBounds) (ops : List Op) : (s.after ops).InBounds := by
  induction ops generalizing s with
  | nil => exact h
  | cons op ops ih => exact ih (h.perform op)

/-! ## Growing and following -/

/-- The commands at positions that were there stay. -/
theorem getElem?_append_commands (cs : List Command) {i : Nat} (hi : i < s.size) :
    (s.append cs).commands[i]? = s.commands[i]? :=
  List.getElem?_append_left hi

theorem commands_prefix_perform {op : Op} (hop : op.isOnward = true) :
    s.commands <+: (s.perform op).1.commands := by
  cases op with
  | append cs => exact List.prefix_append s.commands cs
  | advance =>
    unfold perform tried
    cases hmoved : s.advance? with
    | none => exact List.prefix_rfl
    | some t =>
      obtain ⟨-, rfl⟩ := advance?_eq_some hmoved
      exact List.prefix_rfl
  | _ => cases hop

theorem commands_prefix_after {ops : List Op} (hops : ∀ op ∈ ops, op.isOnward = true) :
    s.commands <+: (s.after ops).commands := by
  induction ops generalizing s with
  | nil => exact List.prefix_rfl
  | cons op ops ih =>
    rw [List.forall_mem_cons] at hops
    exact (commands_prefix_perform hops.1).trans (ih hops.2)

/-- The commands from one position up to another one. -/
def between (s : Store) (i j : Nat) : List Command :=
  (s.commands.drop i).take (j + 1 - i)

theorem between_self {i : Nat} {c : Command} (hc : s.commands[i]? = some c) :
    s.between i i = [c] := by
  obtain ⟨hi, rfl⟩ := List.getElem?_eq_some_iff.mp hc
  rw [between, List.drop_eq_getElem_cons hi, Nat.add_sub_cancel_left]
  rfl

theorem between_cons {i j : Nat} {c : Command} (hc : s.commands[i]? = some c) (hij : i < j) :
    s.between i j = c :: s.between (i + 1) j := by
  obtain ⟨hi, rfl⟩ := List.getElem?_eq_some_iff.mp hc
  have hcount : j + 1 - i = j + 1 - (i + 1) + 1 := by omega
  rw [between, between, List.drop_eq_getElem_cons hi, hcount, List.take_succ_cons]

/-- What becomes current while a story grows and is followed: every command up to the last one that
does, in order. -/
theorem visits_eq {c : Command} (hc : s.current? = some c) {ops : List Op}
    (hops : ∀ op ∈ ops, op.isOnward = true) :
    s.cursor ≤ (s.after ops).cursor ∧
      c :: s.visits ops = (s.after ops).between s.cursor (s.after ops).cursor := by
  -- an operation adds nothing to what is visited, or it is a step to the next position; what stands
  -- at a position now stands there in the end, since commands are only added behind it
  induction ops generalizing s c with
  | nil => exact ⟨Nat.le_refl _, (between_self hc).symm⟩
  | cons op ops ih =>
    have hprefix := commands_prefix_after (s := s) hops
    have hcurrent : (s.after (op :: ops)).commands[s.cursor]? = some c := by
      obtain ⟨hlt, rfl⟩ := List.getElem?_eq_some_iff.mp hc
      exact List.prefix_iff_getElem?.mp hprefix _ hlt
    rw [List.forall_mem_cons] at hops
    cases op with
    | append cs =>
      have hlt : s.cursor < s.size := (List.getElem?_eq_some_iff.mp hc).1
      exact ih (s := s.append cs) ((getElem?_append_commands cs hlt).trans hc) hops.2
    | advance =>
      cases hmoved : s.advance? with
      | none =>
        have hstays : s.perform .advance = (s, some false) := by rw [perform, hmoved]; rfl
        rw [visits, after, List.foldl_cons, hstays]
        exact ih hc hops.2
      | some t =>
        have hmoves : s.perform .advance = (t, some true) := by rw [perform, hmoved]; rfl
        obtain ⟨hnext, ht⟩ := advance?_eq_some hmoved
        obtain ⟨d, hd⟩ : ∃ d, t.current? = some d := by
          rw [ht]
          exact exists_current? hnext
        obtain ⟨hle, hvisits⟩ := ih hd hops.2
        have hcursor : t.cursor = s.cursor + 1 := by rw [ht]
        have hafter : s.after (.advance :: ops) = t.after ops := by
          rw [after, List.foldl_cons, hmoves]
          rfl
        rw [hcursor] at hle hvisits
        rw [hafter] at hcurrent ⊢
        refine ⟨Nat.le_of_succ_le hle, ?_⟩
        have hvisited : s.visits (.advance :: ops) = d :: t.visits ops := by
          simp only [visits, hmoves, hd, if_pos, Option.toList_some, List.singleton_append]
        rw [between_cons hcurrent hle, ← hvisits, hvisited]
    | _ => cases hops.1

/-! ## Every history -/

/-- Whatever is done to a store, its cursor is 0 while it is empty and else on one of its commands,
so that only an empty store has no current command. An operation that fails changes nothing, and a
move fails just where there is no command to go to; going back undoes going on and the other way
round. What is added at the end leaves the cursor and every command where they were. From then on,
while the store only grows and is only followed, the commands that become current, the first one
included, are those from the cursor up to where it comes to stand, in their order and each once,
whenever the store grows. -/
theorem after_keeps_place (cs : List Command) (ops : List Op) :
    let s := (ofList cs).after ops
    (s.commands = [] → s.cursor = 0) ∧ (s.commands ≠ [] → s.cursor < s.commands.length) ∧
      (s.current? = none ↔ s.commands = []) ∧
      (∀ op, (s.perform op).2 = some false → (s.perform op).1 = s) ∧
      ((s.perform .advance).2 = some true ↔ s.cursor + 1 < s.commands.length) ∧
      ((s.perform .retreat).2 = some true ↔ 0 < s.cursor) ∧
      (∀ i, (s.perform (.setCursor i)).2 = some true ↔ 0 ≤ i ∧ i < s.commands.length) ∧
      ((s.perform .advance).2 = some true →
        (s.perform .advance).1.perform .retreat = (s, some true)) ∧
      ((s.perform .retreat).2 = some true →
        (s.perform .retreat).1.perform .advance = (s, some true)) ∧
      (∀ added, (s.perform (.append added)).1.cursor = s.cursor ∧
        ∀ i < s.commands.length,
          (s.perform (.append added)).1.commands[i]? = s.commands[i]?) ∧
      ∀ onward, (∀ op ∈ onward, op.isOnward = true) → s.commands ≠ [] →
        let t := s.after onward
        s.cursor ≤ t.cursor ∧ t.cursor < t.commands.length ∧
          s.current?.toList ++ s.visits onward =
            (t.commands.drop s.cursor).take (t.cursor + 1 - s.cursor) := by
  intro s
  have hbounds : s.InBounds := InBounds.after (.inr rfl) ops
  refine ⟨fun hempty => ?_, fun hne => ?_, hbounds.current?_eq_none_iff, fun op => perform_of_false,
    tried_isSome_iff.trans advance?_isSome_iff, tried_isSome_iff.trans retreat?_isSome_iff,
    fun i => tried_isSome_iff.trans moveTo?_isSome_iff, fun h => ?_, fun h => ?_,
    fun added => ⟨rfl, fun i hi => getElem?_append_commands added hi⟩, fun onward honward hne => ?_⟩
  · rcases hbounds with hlt | hzero
    · rw [size, hempty] at hlt
      cases hlt
    · exact hzero
  · exact hbounds.lt (mt List.length_eq_zero_iff.mp hne)
  · obtain ⟨t, hmoved, hperform⟩ := tried_eq_true h
    have hadvance : s.perform .advance = (t, some true) := hperform
    rw [hadvance, perform, retreat?_of_advance? hmoved]
    rfl
  · obtain ⟨t, hmoved, hperform⟩ := tried_eq_true h
    have hretreat : s.perform .retreat = (t, some true) := hperform
    rw [hretreat, perform, advance?_of_retreat? hbounds hmoved]
    rfl
  · intro t
    have hlt := hbounds.lt (mt List.length_eq_zero_iff.mp hne)
    obtain ⟨c, hc⟩ := exists_current? hlt
    obtain ⟨hle, hvisits⟩ := visits_eq hc honward
    refine ⟨hle, ?_, ?_⟩
    · refine (hbounds.after onward).lt (mt List.length_eq_zero_iff.mp fun hempty => hne ?_)
      have hprefix := commands_prefix_after (s := s) honward
      rw [hempty] at hprefix
      exact List.prefix_nil.mp hprefix
    · rw [hc]
      exact hvisits

/-- A move past the end fails, the story grows by one command, and the same move then succeeds. -/
theorem after_keeps_place_growing :
    let line : Char → Command := fun c => .action [c] .empty
    let s := (ofList [line 'x']).after [.replace [line 'a', line 'b'], .setCursor 2]
    let onward : List Op := [.advance, .advance, .append [line 'c'], .advance]
    (∀ op ∈ onward, op.isOnward = true) ∧ s.commands ≠ [] ∧
      (s.perform (.setCursor 2)).2 = some false ∧ (s.perform (.setCursor 2)).1 = s ∧
      s.current?.toList ++ s.visits onward = [line 'a', line 'b', line 'c'] := by
  intro line s onward
  have honward : ∀ op ∈ onward, op.isOnward = true := by simp [onward, Op.isOnward]
  have hne : s.commands ≠ [] := List.cons_ne_nil _ _
  obtain ⟨-, -, -, hfails, -, -, -, -, -, -, hvisits⟩ := after_keeps_place [line 'x']
    [.replace [line 'a', line 'b'], .setCursor 2]
  have hfailed : (s.perform (.setCursor 2)).2 = some false := rfl
  exact ⟨honward, hne, hfailed, hfails _ hfailed, (hvisits onward honward hne).2.2⟩

end StoryPlayer.Store
