import StoryPlayer.Proofs.Stage.Shows

/-!
# A script rendered from its beginning

Reading a script and rendering it are two ways of going through the same scenes. The reader keeps a
scene that every directive changes. The stage has one of its own: it changes its place only for
another place that is not empty in a snapshot, and leaves hidden members out. Rendered in order from
an empty stage, the commands keep the two in step, whatever lines the script has.
-/

namespace StoryPlayer

namespace Line

/-- The place that a line moves the story to, as it is named. -/
def place? : Line → Option Text
  | location payload => some (Text.trim payload)
  | _ => none

theorem scene_of_command?_eq_none {l : Line} {s : Scene} (h : l.command? s = none) :
    l.scene s = s := by
  rw [scene_eq, h]
  rfl

theorem location_of_place? {l : Line} {place : Text} (h : l.place? = some place) (s : Scene) :
    (l.scene s).location = some place := by
  cases l with
  | location payload => exact h
  | _ => cases h

theorem location_of_place?_eq_none {l : Line} (h : l.place? = none) (s : Scene) :
    (l.scene s).location = s.location := by
  cases l with
  | location payload => cases h
  | _ => rfl

end Line

namespace Reading

/-- The story is at the last place that a line names. -/
theorem ofLines_location (s : Scene) (ls : List Line) :
    (ofLines s ls).scene.location = (ls.filterMap Line.place?).getLast?.or s.location := by
  induction ls generalizing s with
  | nil => rfl
  | cons l ls ih =>
    rw [ofLines]
    dsimp only
    rw [ih]
    cases hplace : l.place? with
    | none =>
      rw [List.filterMap_cons_none hplace, Line.location_of_place?_eq_none hplace]
    | some place =>
      rw [List.filterMap_cons_some hplace, Line.location_of_place? hplace, List.getLast?_cons]
      cases (ls.filterMap Line.place?).getLast? <;> rfl

theorem ofLines_take_add_one {s : Scene} {ls : List Line} {n : Nat} {l : Line}
    (hl : ls[n]? = some l) :
    ofLines s (ls.take (n + 1)) =
      (ofLines s (ls.take n)).append (ofLines (ofLines s (ls.take n)).scene [l]) := by
  rw [List.take_add_one, hl, ofLines_append]
  rfl

/-- Every command is that of a line: the lines before it give the commands before it, and the scene
in which it is read. -/
theorem exists_line {s : Scene} {ls : List Line} {k : Nat} {c : Command}
    (hc : (ofLines s ls).commands[k]? = some c) :
    ∃ n l, ls[n]? = some l ∧
      (ofLines s (ls.take n)).commands = (ofLines s ls).commands.take k ∧
      l.command? (ofLines s (ls.take n)).scene = some c := by
  induction ls generalizing s k with
  | nil => simp [ofLines] at hc
  | cons l ls ih =>
    -- A line without a command leaves the position to the lines behind it.
    cases hread : l.command? s with
    | none =>
      rw [ofLines, hread] at hc
      obtain ⟨n, m, hm, hfront, hcommand⟩ := ih hc
      refine ⟨n + 1, m, hm, ?_, hcommand⟩
      simpa [ofLines, hread] using hfront
    | some d =>
      rw [ofLines, hread] at hc
      cases k with
      | zero =>
        obtain rfl : d = c := Option.some.inj hc
        exact ⟨0, l, rfl, rfl, hread⟩
      | succ k =>
        obtain ⟨n, m, hm, hfront, hcommand⟩ := ih hc
        refine ⟨n + 1, m, hm, ?_, hcommand⟩
        simpa [ofLines, hread] using hfront

end Reading

namespace Stage

/-- What there is to see of a scene. -/
def shown (s : Stage) (scene : Scene) : Scene :=
  ⟨scene.location, s.visible scene.cast⟩

theorem shown_eq_of_hidden {s t : Stage} (h : t.hidden = s.hidden) (scene : Scene) :
    t.shown scene = s.shown scene := by
  simp [shown, visible, h]

theorem moved_self (place : Option Text) : moved place place = place := by
  unfold moved
  split <;> rfl

/-- A stage in step with the reader before a line is in step with it behind the line. -/
theorem render_inStep {s : Stage} {scene : Scene} {l : Line} {c : Command}
    (h : s.scene = s.shown scene) (hc : l.command? scene = some c) :
    (s.render c).1.scene = s.shown (l.scene scene) := by
  cases l with
  | blank | choices => cases hc
  | location payload =>
    cases hc
    unfold render
    dsimp only
    split
    next hplace => rw [h] at hplace ⊢; simp [shown, Line.scene, ← hplace]
    · simp [h, shown, Line.scene]
  | cast payload =>
    cases hc
    simp [render, h, shown, Line.scene]
  | dialogue speaker text =>
    cases hc
    rw [render_snapshot s rfl, h]
    simp [shown, Line.scene, moved_self]
  | action text =>
    cases hc
    rw [render_snapshot s rfl, h]
    simp [shown, Line.scene, moved_self]

theorem renderAll_cons (s : Stage) (c : Command) (cs : List Command) :
    (s.renderAll (c :: cs)).1 = ((s.render c).1.renderAll cs).1 :=
  rfl

/-- In step before some lines, the stage is in step behind them. -/
theorem renderAll_inStep {s : Stage} {scene : Scene} (h : s.scene = s.shown scene)
    (ls : List Line) :
    (s.renderAll (Reading.ofLines scene ls).commands).1.scene =
      s.shown (Reading.ofLines scene ls).scene := by
  induction ls generalizing s scene with
  | nil => exact h
  | cons l ls ih =>
    rw [Reading.ofLines]
    dsimp only
    cases hc : l.command? scene with
    | none =>
      rw [Line.scene_of_command?_eq_none hc]
      exact ih h
    | some c =>
      have hshown := shown_eq_of_hidden (s.render_hidden c)
      have hstep : (s.render c).1.scene = (s.render c).1.shown (l.scene scene) := by
        rw [hshown]
        exact render_inStep h hc
      rw [Option.toList_some, List.singleton_append, renderAll_cons, ih hstep, hshown]

/-- A stage that is fresh, or was reset after whatever was played on it, keeps step with the reader
of a script whose commands are rendered in order. Behind every command, its place is that of the
reader behind the line of the command, none before a line names one, and its cast is that of the
reader but for the hidden members. -/
theorem readScript_inStep (canvas : Canvas) (hidden : List Text) (played : List Cue) (t : Text) :
    ∀ start ∈ [new canvas hidden, ((new canvas hidden).follow played).1.reset.1],
      ∀ k c, (readScript t .empty).commands[k]? = some c →
        ∃ n l, (Line.all t)[n]? = some l ∧
          let before := Reading.ofLines .empty ((Line.all t).take n)
          let read := (Line.all t).take (n + 1)
          let scene := (Reading.ofLines .empty read).scene
          before.commands = (readScript t .empty).commands.take k ∧
            l.command? before.scene = some c ∧
            scene.location = (read.filterMap Line.place?).getLast? ∧
            (start.renderAll ((readScript t .empty).commands.take (k + 1))).1.scene =
              ⟨scene.location,
                scene.cast.filter fun m => Text.lower m.name ∉ hidden.map Text.lower⟩ := by
  intro start hstart k c hc
  have hhidden : start.hidden = hidden.map Text.lower := by
    rcases List.mem_pair.mp hstart with rfl | rfl
    · rfl
    · exact follow_hidden (new canvas hidden) played
  have hempty : start.scene = .empty := by
    rcases List.mem_pair.mp hstart with rfl | rfl <;> rfl
  obtain ⟨n, l, hl, hfront, hread⟩ := Reading.exists_line hc
  have htake : (Reading.ofLines .empty ((Line.all t).take (n + 1))).commands =
      (readScript t .empty).commands.take (k + 1) := by
    rw [Reading.ofLines_take_add_one hl, List.take_add_one, hc, readScript, ← hfront]
    simp [Reading.append, Reading.ofLines, hread]
  refine ⟨n, l, hl, hfront, hread, ?_, ?_⟩
  · rw [Reading.ofLines_location]
    exact Option.or_none
  · rw [← htake, renderAll_inStep hempty]
    simp only [shown, visible, hhidden]

/-- An empty place stays the place, and a hidden member stays away, when a line is spoken there. -/
theorem readScript_inStep_empty_place :
    let start := new .full [['B']]
    let t : Text := ['L', 'O', 'C', ':', '\n', 'C', 'H', 'A', ':', 'a', ',', 'b', '\n', 'x']
    let snapshot : Scene := ⟨some [], [⟨['a'], neutral⟩, ⟨['b'], neutral⟩]⟩
    start ∈ [start, (start.follow []).1.reset.1] ∧
      (readScript t .empty).commands[2]? = some (.action ['x'] snapshot) ∧
      (start.renderAll ((readScript t .empty).commands.take 3)).1.scene =
        ⟨some [], [⟨['a'], neutral⟩]⟩ := by
  intro start t snapshot
  have hstart : start ∈ [start, (start.follow []).1.reset.1] := List.mem_cons_self
  have hc : (readScript t .empty).commands[2]? = some (.action ['x'] snapshot) := rfl
  obtain ⟨n, l, hl, -, hread, -, hscene⟩ :=
    readScript_inStep .full [['B']] [] t start hstart 2 _ hc
  have hbehind : (Reading.ofLines .empty ((Line.all t).take (n + 1))).scene = snapshot := by
    rw [Reading.ofLines_take_add_one hl]
    cases l with
    | action text => exact (Command.action.inj (Option.some.inj hread)).2
    | blank | location | cast | choices | dialogue => cases hread
  rw [hbehind] at hscene
  exact ⟨hstart, hc, hscene⟩

end Stage

end StoryPlayer
