import StoryPlayer.Proofs.Playback.Progress

/-!
# A stream that fails leaves the last frame

When a stream fails, an ingestor takes up what was added so far and leaves the player to itself. The
player could go on from there, but it never has to: one that waits for more is at the end of what
has come, so there is nothing to take up. All that a failure does is to say that nothing more will
come.
-/

namespace StoryPlayer

/-- The stream fails with a move: it says so itself, or its source gives up. -/
def Move.isFailure : Move → Bool
  | .handle r => r.kind = .error
  | .giveUp => true
  | _ => false

namespace Player

/-- The player when it has learned that nothing more will come. -/
def frozen (p : Player) : Player :=
  { p with
    streaming := false
    phase := if p.phase = .waitingForMore then .ended else p.phase }

/-- A player that takes up what was added before the stream failed has nothing to take up. -/
theorem Settled.resume_frozen {p : Player} {ts : List Ticket} (h : p.Settled ts) :
    (p.setStreaming false).resume = (p.frozen, none) := by
  unfold Player.resume Player.frozen
  by_cases hphase : p.phase = .waitingForMore
  · obtain ⟨-, hlast⟩ := h.atEnd hphase
    have hwaiting : (p.setStreaming false).phase = .waitingForMore := hphase
    have hlast' : (p.setStreaming false).store.advance? = none := hlast
    rw [if_neg (not_not_intro hwaiting), hlast', if_pos hphase]
    rfl
  · have hwaiting : (p.setStreaming false).phase ≠ .waitingForMore := hphase
    rw [if_pos hwaiting, if_neg hphase]
    rfl

end Player

namespace Playback

/-- Whichever way the stream fails, the ingestor aborts it. -/
theorem step_isFailure {s : Playback} (hopen : s.ingestor.finished = false) {m : Move}
    (hm : m.isFailure = true) :
    ∃ a : Afterwards, a.offer? = none ∧
      s.step m = { s with ingestor := { s.ingestor with finished := true } }.leave
        (s.player.setStreaming false).resume a := by
  cases m with
  | ask r => cases hm
  | complete i => cases hm
  | fire i => cases hm
  | giveUp => exact ⟨.nothing, rfl, rfl⟩
  | handle r =>
    have hkind : r.kind = .error := of_decide_eq_true hm
    refine ⟨.fail (.reported r.text), rfl, ?_⟩
    have hhandle : s.ingestor.handle s.player r =
        s.ingestor.failWith s.player (.reported r.text) := by
      simp [Ingestor.handle, hopen, hkind]
    simp only [step, hhandle]
    rfl

/-- Whatever was played and whatever had come, when the stream fails nothing happens but that it is
over: the ingestor takes no more records, the story no longer streams in, and a player that waited
for more has come to the end. Store, cursor, current command, display, choices, auto mode, the armed
timer and the suspended renders are what they were, and nothing is told to the outside, so nothing
is rendered either. -/
theorem run_failed_frozen (settings : Settings) (ms : List Move)
    (hms : ∀ m ∈ ms, m.isPlayback = true)
    (hopen : ((new settings).run ms).ingestor.finished = false) {m : Move}
    (hm : m.isFailure = true) :
    let s := (new settings).run ms
    s.step m =
      { s with
        ingestor := { s.ingestor with finished := true }
        player := { s.player with
          streaming := false
          phase := if s.player.phase = .waitingForMore then .ended else s.player.phase } } := by
  intro s
  have h : s.Settled :=
    run_keeps Settled (fun m => m.isPlayback = true) (fun _ _ hm hs => step_settled hs hm) _
      (new_settled settings) ms hms
  obtain ⟨a, hoffer, hstep⟩ := step_isFailure hopen hm
  rw [hstep, h.player.resume_frozen]
  cases a with
  | offer final => cases hoffer
  | nothing => rfl
  | fail f => rfl

/-- The source fails while the player waits for more behind the first line, which is there in full
and stays on display. -/
theorem run_failed_waiting :
    let ms : List Move :=
      [.handle ⟨.chunk, ['A', '\n']⟩, .handle ⟨.setupReady, []⟩, .complete 0, .fire 0, .fire 0]
    let s := (new .default).run ms
    (∀ m ∈ ms, m.isPlayback = true) ∧ s.ingestor.finished = false ∧
      Move.isFailure .giveUp = true ∧ s.player.phase = .waitingForMore ∧
      (s.step .giveUp).player.phase = .ended ∧
      (s.step .giveUp).player.display = ⟨narration, ['A'], true⟩ ∧
      (s.step .giveUp).player.cues = s.player.cues := by
  intro ms
  have hms : ∀ m ∈ ms, m.isPlayback = true := by decide
  have hopen : ((new .default).run ms).ingestor.finished = false := by decide +kernel
  have hphase : ((new .default).run ms).player.phase = .waitingForMore := by decide +kernel
  have hdisplay : ((new .default).run ms).player.display = ⟨narration, ['A'], true⟩ := by
    decide +kernel
  have hstep := run_failed_frozen .default ms hms hopen (m := .giveUp) rfl
  refine ⟨hms, hopen, rfl, hphase, ?_⟩
  rw [hstep]
  dsimp only
  exact ⟨if_pos hphase, hdisplay, rfl⟩

end Playback

end StoryPlayer
