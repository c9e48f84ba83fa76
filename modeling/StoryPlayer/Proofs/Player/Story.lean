import StoryPlayer.Proofs.Player.Turn
import StoryPlayer.Proofs.Store.Cursor

/-!
# The story that a player has

Playing moves the cursor and nothing else of what was loaded: commands, scene and choices stay, and
so does what the player knows of the stream.
-/

namespace StoryPlayer.Player

/-- Two players with the same story, wherever they are in it. -/
structure SameStory (p q : Player) : Prop where
  commands : q.store.commands = p.store.commands
  scene : q.scene = p.scene
  choices : q.choices = p.choices
  streaming : q.streaming = p.streaming

theorem SameStory.refl (p : Player) : p.SameStory p :=
  ⟨rfl, rfl, rfl, rfl⟩

theorem process_sameStory {p q : Player} (h : p.SameStory q) : p.SameStory (process q).1 := by
  cases hc : q.store.current? with
  | none =>
    rw [process_of_none hc]
    exact ⟨h.commands, h.scene, h.choices, h.streaming⟩
  | some c =>
    rw [process_of_some hc]
    exact ⟨h.commands, h.scene, h.choices, h.streaming⟩

theorem finishReveal_sameStory {p q : Player} (h : p.SameStory q) (session : Nat) :
    p.SameStory (q.finishReveal session) := by
  obtain ⟨t, ts, n, heq⟩ := q.exists_finishReveal session
  rw [heq]
  exact ⟨h.commands, h.scene, h.choices, h.streaming⟩

theorem toggleAuto_sameStory (p : Player) : p.SameStory p.toggleAuto := by
  obtain ⟨t, ts, n, heq⟩ := p.exists_toggleAuto
  rw [heq]
  exact ⟨rfl, rfl, rfl, rfl⟩

/-- Playing keeps the story. -/
theorem Turn.sameStory {p : Player} {c : Trigger} {w : Waiting} (h : p.Turn c w)
    (hc : c.isPlayback = true) : p.SameStory w.1 := by
  cases h with
  | stay r => exact .refl p
  | load t => cases hc
  | append t => cases hc
  | stream on => cases hc
  | seek h => cases hc
  | textSpeed n => exact ⟨rfl, rfl, rfl, rfl⟩
  | autoSpeed n => exact ⟨rfl, rfl, rfl, rfl⟩
  | toggle r => exact p.toggleAuto_sameStory
  | finish => exact ⟨rfl, rfl, rfl, rfl⟩
  | skip r hphase =>
    rw [skip_of_typing hphase]
    refine finishReveal_sameStory ?_ _
    exact ⟨rfl, rfl, rfl, rfl⟩
  | runOut hphase hstream hlast => exact ⟨rfl, rfl, rfl, rfl⟩
  | restart r h hsize => exact process_sameStory ⟨rfl, rfl, rfl, rfl⟩
  | back hr h hback =>
    exact process_sameStory ⟨(Store.back?_eq_some hback).1, rfl, rfl, rfl⟩
  | onward h hnext =>
    obtain ⟨-, rfl⟩ := Store.advance?_eq_some hnext
    exact process_sameStory ⟨rfl, rfl, rfl, rfl⟩
  | exhaust h hlast => exact ⟨rfl, rfl, rfl, rfl⟩
  | spent h hlast => exact ⟨rfl, rfl, rfl, rfl⟩
  | late h => exact .refl p
  | reveal h htext => exact ⟨rfl, rfl, rfl, rfl⟩
  | stayOn h htext hcast =>
    obtain ⟨t, ts, n, heq⟩ := p.exists_stayOn
    rw [heq]
    exact ⟨rfl, rfl, rfl, rfl⟩
  | disarmed h => exact .refl p
  | showNext h hjob hrest => exact ⟨rfl, rfl, rfl, rfl⟩
  | showLast h hjob =>
    refine finishReveal_sameStory ?_ _
    exact ⟨rfl, rfl, rfl, rfl⟩
  | showNone h hjob =>
    refine finishReveal_sameStory ?_ _
    exact ⟨rfl, rfl, rfl, rfl⟩
  | lapse h hjob hlate => exact ⟨rfl, rfl, rfl, rfl⟩
  | fail h hwait => exact ⟨rfl, rfl, rfl, rfl⟩

theorem start_sameStory (p : Player) : p.SameStory p.start.1 :=
  (p.start_turn .start (.inl rfl)).sameStory rfl

theorem resume_sameStory (p : Player) : p.SameStory p.resume.1 :=
  p.resume_turn.sameStory rfl

/-! ## Stories and readings -/

/-- The player has the story that a reading gives. -/
structure Holds (p : Player) (r : Reading) : Prop where
  commands : p.store.commands = r.commands
  scene : p.scene = r.scene
  choices : p.choices = r.offered

theorem Holds.sameStory {p q : Player} {r : Reading} (h : p.Holds r) (hsame : p.SameStory q) :
    q.Holds r :=
  ⟨hsame.commands.trans h.commands, hsame.scene.trans h.scene, hsame.choices.trans h.choices⟩

theorem load_holds (p : Player) (t : Text) : (p.load t).Holds (readScript t Scene.empty) :=
  ⟨rfl, rfl, rfl⟩

theorem load_start_holds (p : Player) (t : Text) :
    (p.load t).start.1.Holds (readScript t Scene.empty) :=
  (p.load_holds t).sameStory (p.load t).start_sameStory

/-- A script that is added is read from the scene that was left. -/
theorem Holds.append {p : Player} {r : Reading} (h : p.Holds r) (t : Text) :
    (p.append t).Holds (r.append (readScript t r.scene)) := by
  unfold Player.append
  rw [h.scene]
  refine ⟨?_, rfl, ?_⟩
  · exact congrArg (· ++ (readScript t r.scene).commands) h.commands
  · -- Choices that are added take the place of those before.
    dsimp only
    rw [h.choices, Reading.offered, Reading.offered, Reading.append]
    cases (readScript t r.scene).choices <;> rfl

end StoryPlayer.Player
