import StoryPlayer.Proofs.Player.Pace

/-!
# A story that is told while it streams in

A story that starts while it streams in is told from its start, and what is added to it is told
behind what was there. What an ingestor asks for neither replaces the timer of a player that has one
nor sends the player back.
-/

namespace StoryPlayer

namespace Player

variable {p₀ p : Player}

theorem performs_resume (hlively : p.Lively []) (hrecites : p₀.Recites p) (hpaces : p₀.Paces p) :
    p₀.Performs p.resume where
  settled := by simpa using hlively.resume.1
  recites := hrecites.resume
  paces := hpaces.resume
  playing := resume_playing

/-- A player that has a timer does not wait for more. -/
theorem resume_of_timer {ts : List Ticket} (h : p.Steady ts) (htimer : p.timer ≠ none) :
    p.resume = (p, none) := by
  apply if_pos
  intro hphase
  exact htimer (h.fits.timer_eq_none (by simp [hphase]) (by simp [hphase]))

theorem Waits.setStreaming (h : p₀.Waits p) : p₀.Waits (p.setStreaming false) where
  settled := by
    have hsteady := h.settled.toLively.streamEnds.toSteady
    have hidle : (p.setStreaming false).phase = .idle := h.idle
    exact .of_phase hsteady (by simp [hidle]) (by simp [hidle]) (by simp [hidle])
      h.settled.inBounds nofun
  idle := h.idle
  renders := h.renders
  completes := h.completes
  paces := h.paces.setStreaming false

theorem Waits.timer (h : p₀.Waits p) : p.timer = none :=
  h.settled.fits.timer_eq_none (by simp [h.idle]) (by simp [h.idle])

/-- A story is told from its start if there is one. -/
theorem Waits.loadAndStart (h : p₀.Waits p) (on : Bool) (t : Text)
    (hcommands : on = true → (readScript t Scene.empty).commands ≠ []) :
    let w := ((p.setStreaming on).load t).start
    p₀.Performs w ∨
      on = false ∧ w.1.store.commands = [] ∧ w.2 = none ∧ p₀.Waits w.1 := by
  intro w
  have hsteady : (p.setStreaming on).Steady [] :=
    h.settled.toSteady.congr rfl rfl rfl rfl rfl rfl rfl
  have hsettled : w.1.Settled w.2.toList := by
    simpa using (hsteady.loadAndStart t hcommands).1
  have hpaces : p₀.Paces w.1 := (h.paces.setStreaming on).loadAndStart t
  have hrenders : p₀.Renders (p.setStreaming on) [] := h.renders
  have hcompletes : p₀.Completes (p.setStreaming on) [] := h.completes
  by_cases hnone : (readScript t Scene.empty).commands = []
  · right
    have hstart : w = ((p.setStreaming on).load t, none) :=
      if_pos (List.length_eq_zero_iff.mpr hnone)
    have hload : (p.setStreaming on).Completes ((p.setStreaming on).load t) [] :=
      ⟨[.reset, .display ⟨[], readyText, false⟩], by simp [load, say, notify, cue, disarm], rfl⟩
    have hoff : on = false := by
      by_contra hon
      exact hcommands (eq_true_of_ne_false hon) hnone
    rw [hstart] at hsettled hpaces ⊢
    exact ⟨hoff, hnone, rfl, by simpa using hsettled, rfl,
      hrenders.trans ((p.setStreaming on).load_renders t), hcompletes.quiet hload, hpaces⟩
  · left
    refine ⟨hsettled, recites_start t hrenders hcompletes hnone, hpaces, ?_⟩
    exact ((p.setStreaming on).load t).start_turn .start (.inl rfl) |>.playing

end Player

open Player

/-- The player that an ingestor feeds tells a story by itself as soon as there is one. -/
structure Ingestor.Tells (p₀ : Player) (g : Ingestor) (w : Waiting) : Prop where
  before : g.setupReady = false → w.2 = none ∧ p₀.Waits w.1
  after : g.setupReady = true →
    p₀.Performs w ∨ g.finished = true ∧ w.1.store.commands = [] ∧ w.2 = none ∧ p₀.Waits w.1

namespace Ingestor

variable {p₀ p q : Player} {g g' : Ingestor} {rs : List Request} {a : Afterwards} {w : Waiting}
  {sent : Text}

/-- While the stream is open, a story that has started is performed. -/
theorem Tells.performs (h : g.Tells p₀ w) (hopen : g.finished = false)
    (hready : g.setupReady = true) : p₀.Performs w := by
  rcases h.after hready with hperforms | ⟨hfinished, -⟩
  · exact hperforms
  · cases hopen.symm.trans hfinished

theorem Tells.of_ready (hready : g.setupReady = true)
    (h : p₀.Performs w ∨ g.finished = true ∧ w.1.store.commands = [] ∧ w.2 = none ∧
      p₀.Waits w.1) : g.Tells p₀ w where
  before hnot := by cases hready.symm.trans hnot
  after _ := h

/-- A player that is resumed at the end of what is asked goes on telling, and keeps its timer. -/
theorem tells_resume {u : Player} (hready : g.setupReady = true) (hlively : u.Lively [])
    (hrecites : p₀.Recites u) (hpaces : p₀.Paces u) :
    g.Tells p₀ u.resume ∧ (u.timer ≠ none → u.resume.1.timer = u.timer ∧ u.resume.2 = none) := by
  refine ⟨.of_ready hready (.inl (performs_resume hlively hrecites hpaces)), fun htimer => ?_⟩
  rw [resume_of_timer hlively.toSteady htimer]
  exact ⟨rfl, rfl⟩

/-- Whatever an ingestor asks for, the player goes on telling the story, and keeps its timer. -/
theorem Intake.tells (h : g.Intake rs g' a) (hopen : g.finished = false)
    (htells : g.Tells p₀ (p, none)) (hstream : g.setupReady = true → p.streaming = true)
    (hasked : p.askAll rs = (w.1, w.2.toList)) :
    g'.Tells p₀ w ∧ (p.timer ≠ none → w.1.timer = p.timer ∧ w.2 = none) := by
  have hperforms := htells.performs hopen
  have hended (hready : g.setupReady = true) : p.phase ≠ .ended := by
    intro hphase
    cases (hstream hready).symm.trans ((hperforms hready).recites.ended hphase).1
  -- A list of requests leads to the render that the last of them asks for.
  have hwaiting {v : Waiting} (hv : p.askAll rs = (v.1, v.2.toList)) : w = v := by
    obtain ⟨hplayer, hticket⟩ := Prod.mk.inj (hasked.symm.trans hv)
    exact Prod.ext hplayer (by simpa using congrArg List.head? hticket)
  cases h with
  | ignore hready hfinished =>
    obtain rfl := hwaiting (v := (p, none)) rfl
    refine ⟨⟨fun hnot => htells.before (hready ▸ hnot), fun hset => ?_⟩, fun _ => ⟨rfl, rfl⟩⟩
    exact .inl (hperforms (hready ▸ hset))
  | @begin _ t hcommands _ hready hready' _ =>
    obtain ⟨-, hwaits⟩ := htells.before hready
    obtain rfl := hwaiting (v := ((p.setStreaming true).load t).start) (by simp [askAll, ask])
    refine ⟨.of_ready hready' ?_, fun htimer => absurd hwaits.timer htimer⟩
    rcases hwaits.loadAndStart true t fun _ => hcommands with hperforms | ⟨hoff, -⟩
    · exact .inl hperforms
    · cases hoff
  | extend t _ hready hready' _ =>
    obtain rfl := hwaiting (v := (p.append t).resume) (by simp [askAll, ask])
    have hp := hperforms hready
    exact tells_resume hready' (hp.settled.toLively.append t)
      (hp.recites.append (hended hready) t) (hp.paces.append t)
  | whole t final _ hready hready' hfinished' =>
    obtain ⟨-, hwaits⟩ := htells.before hready
    obtain rfl := hwaiting (v := ((p.setStreaming false).load t).start) (by simp [askAll, ask])
    refine ⟨.of_ready hready' ?_, fun htimer => absurd hwaits.timer htimer⟩
    rcases hwaits.loadAndStart false t (by rintro ⟨⟩) with hperforms | ⟨-, hrest⟩
    · exact .inl hperforms
    · exact .inr ⟨hfinished', hrest⟩
  | @close _ rest final _ hready hready' _ hrest =>
    have hp := hperforms hready
    have hlively := hp.settled.toLively.streamEnds
    -- Whether lines are added or not, the player is resumed last.
    rcases hrest with rfl | ⟨t, rfl⟩
    · obtain rfl := hwaiting (v := (p.setStreaming false).resume) (by simp [askAll, ask])
      exact tells_resume hready' hlively hp.recites.setStreaming (hp.paces.setStreaming false)
    · obtain rfl := hwaiting (v := ((p.setStreaming false).append t).resume)
        (by simp [askAll, ask])
      exact tells_resume hready' (hlively.append t)
        (hp.recites.setStreaming.append (hended hready) t)
        ((hp.paces.setStreaming false).append t)
  | fail a =>
    obtain rfl := hwaiting (v := (p.setStreaming false).resume) (by simp [askAll, ask])
    by_cases hready : g.setupReady = true
    · have hp := hperforms hready
      exact tells_resume hready hp.settled.toLively.streamEnds hp.recites.setStreaming
        (hp.paces.setStreaming false)
    · replace hready := eq_false_of_ne_true hready
      obtain ⟨-, hwaits⟩ := htells.before hready
      have hphase : p.phase = .idle := hwaits.idle
      have hidle : (p.setStreaming false).phase ≠ .waitingForMore := by
        simp [Player.setStreaming, hphase]
      have hresume : (p.setStreaming false).resume = (p.setStreaming false, none) := if_pos hidle
      rw [hresume]
      refine ⟨⟨fun _ => ⟨rfl, hwaits.setStreaming⟩, fun hset => ?_⟩, fun _ => ⟨rfl, rfl⟩⟩
      cases hready.symm.trans hset

theorem Tells.performs_or_waits (h : g.Tells p₀ w) :
    p₀.Performs w ∨ w.2 = none ∧ p₀.Waits w.1 := by
  cases hready : g.setupReady with
  | false => exact .inr (h.before hready)
  | true => exact (h.after hready).imp_right fun ⟨_, _, hnone, hwaits⟩ => ⟨hnone, hwaits⟩

theorem Tells.settled (h : g.Tells p₀ w) : w.1.Settled w.2.toList := by
  rcases h.performs_or_waits with hperforms | ⟨hnone, hwaits⟩
  · exact hperforms.settled
  · rw [hnone]
    exact hwaits.settled

theorem Tells.paces (h : g.Tells p₀ w) : p₀.Paces w.1 := by
  rcases h.performs_or_waits with hperforms | ⟨-, hwaits⟩
  · exact hperforms.paces
  · exact hwaits.paces

/-- Renders that are done at once change nothing about it. -/
theorem Tells.settle (h : g.Tells p₀ w) :
    g.Tells p₀ (Player.settle w, none) ∧ w.1.Rearms (Player.settle w) ∧
      w.1.SameStory (Player.settle w) := by
  have hnothing (hnone : w.2 = none) :
      w.1.Rearms (Player.settle w) ∧ w.1.SameStory (Player.settle w) := by
    rw [settle_of_none hnone]
    exact ⟨.of_eq rfl rfl, .refl _⟩
  by_cases hready : g.setupReady = true
  · have hnot : g.setupReady ≠ false := by simp [hready]
    rcases h.after hready with hperforms | ⟨hfinished, hcommands, hnone, hwaits⟩
    · obtain ⟨hsettled, -, hrearms, hsame⟩ := hperforms.settle
      exact ⟨⟨fun heq => absurd heq hnot, fun _ => .inl hsettled⟩, hrearms, hsame⟩
    · have hstill := settle_of_none hnone
      refine ⟨⟨fun heq => absurd heq hnot, fun _ => .inr ?_⟩, hnothing hnone⟩
      rw [hstill]
      exact ⟨hfinished, hcommands, rfl, hwaits⟩
  · obtain ⟨hnone, hwaits⟩ := h.before (eq_false_of_ne_true hready)
    refine ⟨⟨fun _ => ⟨rfl, ?_⟩, fun heq => absurd heq hready⟩, hnothing hnone⟩
    rw [settle_of_none hnone]
    exact hwaits

/-- A record takes the story further and leaves the timer alone, if there is one. -/
theorem Tells.handle (h : g.Tells p₀ (p, none)) (hreceiving : g.Receiving p sent)
    (r : StreamRecord) :
    let t := g.handle p r
    let q := Player.settle (t.player, t.ticket)
    t.ingestor.Tells p₀ (q, none) ∧ p.Rearms q ∧ t.player.SameStory q ∧
      (p.timer ≠ none → q.timer = p.timer) := by
  intro t q
  obtain ⟨rs, hintake, hasked⟩ := g.handle_takes p r
  have hstream (hready : g.setupReady = true) := (hreceiving.story hready).2.1
  obtain ⟨htells, hkeeps⟩ := hintake.tells (w := (t.player, t.ticket)) hreceiving.unfinished h
    hstream hasked
  obtain ⟨hsettled, hrearms, hsame⟩ := htells.settle
  obtain ⟨-, hrearms'⟩ := askAll_steady h.settled.toSteady rs
  rw [hasked] at hrearms'
  refine ⟨hsettled, hrearms'.trans hrearms, hsame, fun htimer => ?_⟩
  obtain ⟨heq, hnone⟩ := hkeeps htimer
  exact (congrArg Player.timer (settle_of_none hnone)).trans heq

end Ingestor

end StoryPlayer
