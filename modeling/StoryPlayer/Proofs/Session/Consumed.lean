import StoryPlayer.Proofs.Session.Course

/-!
# A story that is played by itself is told to its end

However the records of a story come in and whatever the player is doing when they do, in the end all
of the story has been told, as if it had been there from the first.
-/

namespace StoryPlayer

namespace Player

/-- The player is done with a story: every command was rendered in its order, every text was there in
full, once and in its order, and the last of them is on display. -/
structure HasTold (p : Player) (r : Reading) : Prop where
  story : p.Holds r
  phase : p.phase = if r.commands = [] then .idle else .ended
  cursor : r.commands ≠ [] → p.store.cursor + 1 = r.commands.length
  renders : renders p.cues.toList = r.commands
  displays : fullDisplays p.cues.toList = r.commands.filterMap Command.full?
  display : ∀ d, (r.commands.filterMap Command.full?).getLast? = some d → p.display = d

/-- The player has told a story as far as a delay that cannot be waited for. -/
structure IsHeldUp (p : Player) (r : Reading) : Prop where
  story : p.Holds r
  stuck : p.IsStuck
  renders : renders p.cues.toList = r.commands.take (p.store.cursor + 1)
  displays : fullDisplays p.cues.toList = (r.commands.take p.told).filterMap Command.full?

variable {settings : Settings} {p : Player} {r : Reading}

/-- A new player has not rendered anything. -/
theorem Renders.of_new {cs : List Command} (h : (Player.new settings).Renders p cs) :
    StoryPlayer.renders p.cues.toList = cs := by
  obtain ⟨added, hcues, rfl⟩ := h
  rw [hcues]
  rfl

theorem Completes.of_new {ds : List Display} (h : (Player.new settings).Completes p ds) :
    fullDisplays p.cues.toList = ds := by
  obtain ⟨added, hcues, rfl⟩ := h
  rw [hcues]
  rfl

theorem new_waits (settings : Settings) : (Player.new settings).Waits (.new settings) where
  settled := (Playback.new_settled settings).player
  idle := rfl
  renders := .of_eq rfl
  completes := .of_eq rfl
  paces := ⟨rfl, rfl, rfl, rfl, rfl, nofun⟩

/-- A player that performs in auto mode goes on as long as it can. -/
theorem Performs.ended (h : (Player.new settings).Performs (p, none)) (htimer : p.timer = none)
    (hauto : settings.autoMode = true) (hstream : p.streaming = false) : p.phase = .ended := by
  have hsettled : p.Settled [] := h.settled
  cases hphase : p.phase with
  | idle => exact absurd hphase h.recites.started
  | playing =>
    obtain ⟨t, ht, -⟩ := hsettled.playing hphase
    cases ht
  | typing =>
    obtain ⟨t, ht, -⟩ := hsettled.fits.reveals hphase
    cases htimer.symm.trans ht
  | awaitingInput =>
    exact absurd htimer (hsettled.awaiting hphase (.inr (h.paces.auto.trans hauto)))
  | waitingForMore => cases hstream.symm.trans (hsettled.atEnd hphase).1
  | ended => rfl

theorem Performs.hasTold (h : (Player.new settings).Performs (p, none)) (htimer : p.timer = none)
    (hauto : settings.autoMode = true) (hstream : p.streaming = false) (hstory : p.Holds r) :
    p.HasTold r := by
  have hphase := h.ended htimer hauto hstream
  have hrecites := h.recites
  have hlt : p.store.cursor < p.store.commands.length := hrecites.lt
  have hlast : p.store.cursor + 1 = p.store.commands.length :=
    Nat.le_antisymm hlt (Store.advance?_eq_none_iff.mp (hrecites.ended hphase).2)
  have htaken : p.store.commands.take (p.store.cursor + 1) = r.commands := by
    rw [hlast, List.take_length, hstory.commands]
  have hshown : p.shown = r.commands.filterMap Command.full? := by
    rw [shown, told_of_ne (by simp [hphase]) (by simp [hphase]), htaken]
  rw [hstory.commands] at hlt hlast
  have hsome : r.commands ≠ [] := List.ne_nil_of_length_pos (Nat.zero_lt_of_lt hlt)
  refine ⟨hstory, ?_, fun _ => hlast, ?_, ?_, ?_⟩
  · rw [hphase, if_neg hsome]
  · have hrenders := hrecites.renders
    rw [htaken] at hrenders
    exact hrenders.of_new
  · have hcompletes := hrecites.completes
    rw [hshown] at hcompletes
    exact hcompletes.of_new
  · rw [← hshown]
    exact hrecites.display (by simp [hphase])

theorem Performs.isHeldUp (h : (Player.new settings).Performs (p, none)) (hstuck : p.IsStuck)
    (hstory : p.Holds r) : p.IsHeldUp r where
  story := hstory
  stuck := hstuck
  renders := by
    rw [← hstory.commands]
    exact h.recites.renders.of_new
  displays := by
    rw [← hstory.commands]
    exact h.recites.completes.of_new

theorem Waits.hasTold (h : (Player.new settings).Waits p) (hstory : p.Holds r)
    (hnone : r.commands = []) : p.HasTold r where
  story := hstory
  phase := by rw [hnone, if_pos rfl, h.idle]
  cursor hsome := absurd hnone hsome
  renders := by rw [hnone, h.renders.of_new]
  displays := by rw [hnone, h.completes.of_new, List.filterMap_nil]
  display := by simp [hnone]

end Player

namespace Session

open Player

variable {p₀ : Player} {settings : Settings} {r : Reading} {answers : Array (Nat × Result)}
  {limit rank : Nat} {s : Session}

/-- Run to its end, a session that plays has all its answers, and its player has all of the story. -/
theorem Plays.run (h : Plays p₀ r answers limit s.pending s rank) (hquiet : s.Quiet) :
    s.run.finished = answers ∧ s.run.player.streaming = false ∧ s.run.player.Holds r ∧
      (p₀.Performs (s.run.player, none) ∨ r.commands = [] ∧ p₀.Waits s.run.player) ∧
      (s.run.player.timer = none ∨ s.run.player.IsStuck) := by
  obtain ⟨v, rank', hrun, hquiet', hplays, hstop⟩ := h.ringWhile (fun _ _ => true) hquiet
  have hnone : earliest (v.alarms.filter v.isLive) = none := by
    cases hb : earliest (v.alarms.filter v.isLive) with
    | none => rfl
    | some b => cases hstop b hb
  have hv : s.run = v := hrun
  rw [hv]
  exact hplays.atEnd hquiet' hnone

/-- When no timer is left the story has been told, unless the one that is left never fires. -/
theorem Plays.run_hasTold (h : Plays (.new settings) r answers limit s.pending s rank)
    (hquiet : s.Quiet) (hauto : settings.autoMode = true) :
    let p := s.run.player
    (p.timer = none ∧ p.HasTold r ∨ p.IsHeldUp r) ∧
      (settings.IsPaced → p.timer = none ∧ p.HasTold r) := by
  intro p
  obtain ⟨-, hstream, hstory, htells, htimer⟩ := h.run hquiet
  rcases htells with hperforms | ⟨hcommands, hwaits⟩
  · rcases htimer with hnone | hstuck
    · have htold := hperforms.hasTold hnone hauto hstream hstory
      exact ⟨.inl ⟨hnone, htold⟩, fun _ => ⟨hnone, htold⟩⟩
    · refine ⟨.inr (hperforms.isHeldUp hstuck hstory), fun hpaced => ?_⟩
      exact absurd hstuck (hperforms.paces.keepsTime hpaced.keepsTime).not_isStuck
  · have htold := hwaits.hasTold hstory hcommands
    exact ⟨.inl ⟨hwaits.timer, htold⟩, fun _ => ⟨hwaits.timer, htold⟩⟩

/-- A source that delivers a text in time is read to its end. -/
theorem plays_consume (settings : Settings) {t : Text} {source : Source} {timeout : Seconds}
    (hdelivers : Delivers t [] source.records) (hallows : timeout.Allows source.duration)
    (offers : Bool) :
    let r := readScript t Scene.empty
    let s := ((Session.new (.new settings) false).addIntake timeout offers).call 0 (.consume source)
    s.Quiet ∧ ∃ rank,
      Plays (.new settings) r #[(0, .choices r.offered)] source.duration s.pending s rank := by
  intro r s
  obtain ⟨arrivals, lastPauses, ending⟩ := source
  cases arrivals with
  | nil => exact absurd rfl hdelivers.ne_nil
  | cons a rest =>
    let s₀ := (Session.new (.new settings) false).addIntake timeout offers
    let source : Source := ⟨a :: rest, lastPauses, ending⟩
    have hbetween : Between (.new settings) ⟨.new, timeout, offers⟩ s₀ := by
      refine ⟨⟨.inl (.refl _), nofun, Nat.le_refl _⟩, ⟨rfl, Int.le_refl _, nofun, nofun, nofun,
        nofun⟩, rfl, rfl, rfl, rfl, ⟨fun _ => ⟨rfl, new_waits settings⟩, nofun⟩⟩
    have hreads : s = { s₀ with control := .read ⟨0, 0, timeout, source⟩ ⟨some 0, []⟩ }.settle := by
      apply settle_of_turn
      simp [turn?, perform, intake?, addIntake, hallows.countable, s₀, source, Session.new]
    have htime : s₀.clock + durationOf a.pauses + durationOfAll rest ≤ source.duration := by
      change (0 : Int) + durationOf a.pauses + durationOfAll rest ≤ _
      simp [Source.duration, durationOfAll, source]
    obtain ⟨v, hv, hplays⟩ := hbetween.read_comes hallows (Ingestor.new_receiving _) hdelivers htime
      lastPauses ending
    obtain ⟨u, rank, hu, hquiet, hplays', -⟩ := hplays.settle
    rw [hreads, hv, hu]
    exact ⟨hquiet, rank, hplays'⟩

/-- However a text is cut into records, whenever they come and whatever the player is doing then: as
long as the last of them is there before the deadline, the call that reads them returns the choices
of the text. When no timer is left that fires, the player has told its story from the first command
to the last, unless it is held up by a delay that cannot be waited for. Under settings whose delays
can be waited for it has told all of it. -/
theorem run_consume_hasTold (settings : Settings) (hauto : settings.autoMode = true) {t : Text}
    {source : Source} (hdelivers : Delivers t [] source.records) {timeout : Seconds}
    (hallows : timeout.Allows source.duration) (offers : Bool) :
    let r := readScript t Scene.empty
    let s := ((Session.new (.new settings) false).addIntake timeout offers).call 0 (.consume source)
    let p := s.run.player
    s.run.finished = #[(0, .choices r.offered)] ∧
      (p.timer = none ∧ p.HasTold r ∨ p.IsHeldUp r) ∧
      (settings.IsPaced → p.timer = none ∧ p.HasTold r) := by
  intro r s p
  obtain ⟨hquiet, rank, hplays⟩ := plays_consume settings hdelivers hallows offers
  exact ⟨(hplays.run hquiet).1, hplays.run_hasTold hquiet hauto⟩

/-- Playback starts with the first line, the second one comes while that is being left, and the last
one after everything else has been told. -/
theorem run_consume_hasTold_late :
    let settings := { Settings.default with autoMode := true }
    let t := ['L', 'O', 'C', ':', 'x', '\n', 'A', ':', ' ', 'h', 'i', '\n', 'B']
    let source : Source := ⟨[⟨[], ⟨.setupReady, []⟩⟩,
      ⟨[1000], ⟨.chunk, ['L', 'O', 'C', ':', 'x', '\n', 'A']⟩⟩,
      ⟨[0, 70000], ⟨.chunk, [':', ' ', 'h', 'i', '\n']⟩⟩, ⟨[9000000], ⟨.done, t⟩⟩], [], .stop⟩
    let s := ((Session.new (.new settings) false).addIntake (.whole 30) true).call 0
      (.consume source)
    settings.autoMode = true ∧ settings.IsPaced ∧ Delivers t [] source.records ∧
      (Seconds.whole 30).Allows source.duration ∧ s.run.finished = #[(0, .choices [])] ∧
      s.run.player.phase = .ended ∧ s.run.player.store.cursor = 2 ∧
      s.run.player.display = ⟨narration, ['B'], true⟩ := by
  have hpaced : Settings.IsPaced { Settings.default with autoMode := true } := by
    constructor <;> decide +kernel
  have hdelivers : Delivers ['L', 'O', 'C', ':', 'x', '\n', 'A', ':', ' ', 'h', 'i', '\n', 'B'] []
      [⟨.setupReady, []⟩, ⟨.chunk, ['L', 'O', 'C', ':', 'x', '\n', 'A']⟩,
        ⟨.chunk, [':', ' ', 'h', 'i', '\n']⟩,
        ⟨.done, ['L', 'O', 'C', ':', 'x', '\n', 'A', ':', ' ', 'h', 'i', '\n', 'B']⟩] :=
    .setup (.inl rfl) (.chunk _ (.chunk _ (.done ⟨['B'], rfl⟩)))
  have hallows : (Seconds.whole 30).Allows 9071000 := by
    refine ⟨by decide +kernel, by decide, .inr ?_⟩
    rintro micros ⟨⟩
    decide
  have htold := @run_consume_hasTold { Settings.default with autoMode := true } rfl _
    ⟨[⟨[], ⟨.setupReady, []⟩⟩, ⟨[1000], ⟨.chunk, ['L', 'O', 'C', ':', 'x', '\n', 'A']⟩⟩,
      ⟨[0, 70000], ⟨.chunk, [':', ' ', 'h', 'i', '\n']⟩⟩,
      ⟨[9000000], ⟨.done, ['L', 'O', 'C', ':', 'x', '\n', 'A', ':', ' ', 'h', 'i', '\n', 'B']⟩⟩],
      [], .stop⟩
    hdelivers _ hallows true
  have hcommands : (readScript
      ['L', 'O', 'C', ':', 'x', '\n', 'A', ':', ' ', 'h', 'i', '\n', 'B'] Scene.empty).commands ≠
        [] := by decide +kernel
  dsimp only at htold ⊢
  obtain ⟨hfinished, -, hall⟩ := htold
  obtain ⟨-, -, hphase, hcursor, -, -, hdisplay⟩ := hall hpaced
  rw [if_neg hcommands] at hphase
  refine ⟨rfl, hpaced, hdelivers, hallows, hfinished, hphase, ?_, hdisplay _ ?_⟩
  · exact Nat.succ.inj (hcursor hcommands)
  · decide +kernel

/-- A player whose delay cannot be waited for stays at the first place, with the whole text at
hand. -/
theorem run_consume_stalls :
    let settings : Settings :=
      { Settings.default with autoMode := true, locationAdvance := Int.ofNat (Nat.pow 10 400) }
    let t := ['L', 'O', 'C', ':', ' ', 'a', '\n', 'B', ':', ' ', 'c']
    let source : Source := ⟨[⟨[], ⟨.chunk, t⟩⟩, ⟨[], ⟨.done, t⟩⟩], [], .stop⟩
    let s := ((Session.new (.new settings) false).addIntake (.whole 30) true).call 0
      (.consume source)
    let p := s.run.player
    Delivers t [] source.records ∧ (Seconds.whole 30).Allows source.duration ∧
      (readScript t Scene.empty).commands.length = 2 ∧ p.phase = .awaitingInput ∧
      p.timer.isSome = true ∧ p.store.cursor = 0 ∧ (renders p.cues.toList).length = 1 ∧
      fullDisplays p.cues.toList = [] := by
  intro settings t source s p
  let begun : Session :=
    { (Session.new (.new settings) false).addIntake (.whole 30) true with
      control := .perform (.consume source) ⟨some 0, []⟩ }
  have hsettle : s = begun.turns 40 := settle_eq_turns 40 (by decide +kernel)
  have hrun : s.run = begun.turns 40 := by
    rw [hsettle]
    exact ringWhile_of_none _ (by decide +kernel)
  have hdelivers : Delivers t [] source.records := .chunk _ (.done ⟨[], rfl⟩)
  have hallows : (Seconds.whole 30).Allows source.duration :=
    ⟨by decide +kernel, by decide, .inl rfl⟩
  have hplayer : p = (begun.turns 40).player := congrArg Session.player hrun
  rw [hplayer]
  refine ⟨hdelivers, hallows, ?_⟩
  decide +kernel

end Session

end StoryPlayer
