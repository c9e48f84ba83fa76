import StoryPlayer.Proofs.Player.Pace
import StoryPlayer.Proofs.Stream.Intake

/-!
# What records make of an ingestor and of a story

A record reads the story of the player, but not how far the player is in it or what the player is
doing. So what records lead to is known without a clock: the same ingestor, and the same story, as
when they are handled one right after another.
-/

namespace StoryPlayer

namespace Player

variable {p q : Player}

theorem SameStory.symm (h : p.SameStory q) : q.SameStory p :=
  ⟨h.commands.symm, h.scene.symm, h.choices.symm, h.streaming.symm⟩

theorem SameStory.setStreaming (h : p.SameStory q) (on : Bool) :
    (p.setStreaming on).SameStory (q.setStreaming on) :=
  ⟨h.commands, h.scene, h.choices, rfl⟩

theorem SameStory.load (h : p.SameStory q) (t : Text) : (p.load t).SameStory (q.load t) :=
  ⟨rfl, rfl, rfl, h.streaming⟩

theorem SameStory.append (h : p.SameStory q) (t : Text) : (p.append t).SameStory (q.append t) := by
  unfold Player.append
  rw [h.scene]
  refine ⟨?_, rfl, ?_, h.streaming⟩
  · exact congrArg (· ++ (readScript t p.scene).commands) h.commands
  · exact congrArg (readScript t p.scene).choices.getD h.choices

theorem SameStory.start (h : p.SameStory q) : p.start.1.SameStory q.start.1 :=
  p.start_sameStory.symm.trans (h.trans q.start_sameStory)

theorem SameStory.resume (h : p.SameStory q) : p.resume.1.SameStory q.resume.1 :=
  p.resume_sameStory.symm.trans (h.trans q.resume_sameStory)

/-- Renders that are done at once leave the story alone. -/
theorem settle_sameStory (w : Waiting) : w.1.SameStory (Player.settle w) := by
  refine settle_keeps (P := fun v => w.1.SameStory v.1) ?_ (.refl _)
  exact fun p t hsame => hsame.trans ((p.rendered_turn t).sameStory rfl)

theorem settle_work_le (w : Waiting) : work (Player.settle w, none) ≤ work w := by
  refine settle_keeps (P := fun v => work v ≤ work w) ?_ (Nat.le_refl _)
  exact fun p t hwork => Nat.le_trans (Nat.le_of_lt ((p.rendered_turn t).work_lt rfl nofun)) hwork

end Player

open Player

/-- A record that ends its stream. -/
def StreamRecord.isLast (r : StreamRecord) : Bool :=
  r.kind = .done || r.kind = .error

/-- Two handlings that differ at most in how far their players are in one story. -/
structure Handling.Same (h h' : Handling) : Prop where
  ingestor : h'.ingestor = h.ingestor
  afterwards : h'.afterwards = h.afterwards
  story : h.player.SameStory h'.player

namespace Ingestor

variable {p q : Player}

theorem leave_same (g : Ingestor) {w v : Waiting} (h : w.1.SameStory v.1) :
    (g.leave w).Same (g.leave v) :=
  ⟨rfl, rfl, h⟩

theorem start_same (g : Ingestor) (h : p.SameStory q) : (g.start p).Same (g.start q) := by
  rw [start_eq, start_eq]
  split
  · exact g.leave_same h
  · exact leave_same _ ((h.setStreaming true).load g.completeText).start

theorem onChunk_same (g : Ingestor) (h : p.SameStory q) (t : Text) :
    (g.onChunk p t).Same (g.onChunk q t) := by
  rw [onChunk_eq, onChunk_eq]
  split
  · split
    · exact start_same _ h
    · exact leave_same _ h
  · split
    · exact leave_same _ h
    · exact leave_same _ (h.append _).resume

theorem onSetup_same (g : Ingestor) (h : p.SameStory q) (t : Text) :
    (g.onSetup p t).Same (g.onSetup q t) := by
  rw [onSetup_eq, onSetup_eq]
  split
  · exact g.leave_same h
  · exact start_same _ h

theorem onDone_same (g : Ingestor) (h : p.SameStory q) (final : Text) :
    (g.onDone p final).Same (g.onDone q final) := by
  have hoff := h.setStreaming false
  rw [onDone_eq, onDone_eq]
  dsimp only
  split
  · exact ⟨rfl, rfl, (hoff.load _).start⟩
  · refine ⟨rfl, rfl, ?_⟩
    split
    · exact hoff.resume
    · exact (hoff.append _).resume

/-- A record comes to the same with every player that has the story. -/
theorem handle_same (g : Ingestor) (h : p.SameStory q) (r : StreamRecord) :
    (g.handle p r).Same (g.handle q r) := by
  unfold handle
  split
  · exact g.leave_same h
  · split
    · exact g.onChunk_same h _
    · exact g.onSetup_same h _
    · exact g.onDone_same h _
    · exact ⟨rfl, rfl, (h.setStreaming false).resume⟩

/-! ## Open and ended streams -/

theorem start_open (g : Ingestor) (p : Player) :
    (g.start p).ingestor.finished = g.finished ∧ (g.start p).afterwards = .nothing := by
  rw [start_eq]
  split <;> exact ⟨rfl, rfl⟩

/-- After a record that does not end the stream there is nothing left to do but to read on. -/
theorem handle_open {g : Ingestor} (p : Player) {r : StreamRecord} (hopen : g.finished = false)
    (hr : r.isLast = false) :
    (g.handle p r).ingestor.finished = false ∧ (g.handle p r).afterwards = .nothing := by
  unfold handle
  rw [if_neg (by simp [hopen])]
  obtain ⟨kind, t⟩ := r
  cases kind with
  | done => cases hr
  | error => cases hr
  | chunk =>
    dsimp only
    rw [onChunk_eq]
    split
    · split
      · obtain ⟨hfinished, hnothing⟩ := (g.buffer t).1.start_open p
        exact ⟨hfinished.trans hopen, hnothing⟩
      · exact ⟨hopen, rfl⟩
    · split <;> exact ⟨hopen, rfl⟩
  | setupReady =>
    dsimp only
    rw [onSetup_eq]
    split
    · exact ⟨hopen, rfl⟩
    · obtain ⟨hfinished, hnothing⟩ := (g.takeSetup t).start_open p
      exact ⟨hfinished.trans ((takeSetup_finished g t).trans hopen), hnothing⟩

/-- A done record ends the stream and has its choices offered, an error record makes it fail. -/
theorem handle_last {g : Ingestor} (p : Player) {r : StreamRecord} (hopen : g.finished = false)
    (hr : r.isLast = true) :
    (g.handle p r).ingestor.finished = true ∧ (g.handle p r).player.streaming = false ∧
      if r.kind = .done then ∃ final, (g.handle p r).afterwards = .offer final
      else (g.handle p r).afterwards = .fail (.reported r.text) := by
  unfold handle
  rw [if_neg (by simp [hopen])]
  obtain ⟨kind, t⟩ := r
  cases kind with
  | chunk => cases hr
  | setupReady => cases hr
  | error => exact ⟨rfl, (p.setStreaming false).resume_sameStory.streaming, rfl⟩
  | done =>
    have hdone := lastPart_finished { g with finished := true } t
    dsimp only
    rw [onDone_eq]
    dsimp only
    split
    · exact ⟨hdone, (((p.setStreaming false).load _).start_sameStory).streaming, _, rfl⟩
    · refine ⟨hdone, ?_, _, rfl⟩
      dsimp only
      split
      · exact (p.setStreaming false).resume_sameStory.streaming
      · exact ((p.setStreaming false).append _).resume_sameStory.streaming

/-! ## Records that are handled one right after another -/

/-- An ingestor and its player behind one more record, when what the record asks for is done at
once. -/
def takeIn (w : Ingestor × Player) (r : StreamRecord) : Ingestor × Player :=
  let h := w.1.handle w.2 r
  (match h.afterwards with
    | .offer final => h.ingestor.offer final
    | _ => h.ingestor,
    Player.settle (h.player, h.ticket))

/-- An ingestor and its player when the stream is over. -/
def close (w : Ingestor × Player) : Ingestor × Player :=
  ({ w.1 with finished := true }, w.2.setStreaming false)

theorem takeIn_open {w : Ingestor × Player} {r : StreamRecord} (hopen : w.1.finished = false)
    (hr : r.isLast = false) : (takeIn w r).1 = (w.1.handle w.2 r).ingestor := by
  unfold takeIn
  dsimp only
  rw [(handle_open w.2 hopen hr).2]

theorem close_of_finished {w : Ingestor × Player} (h : w.1.finished = true) :
    (close w).1 = w.1 := by
  obtain ⟨⟨⟩, p⟩ := w
  cases h
  rfl

/-- What records make of an ingestor is known from the story of its player. -/
theorem takeIn_same (g : Ingestor) (h : p.SameStory q) (r : StreamRecord) :
    (takeIn (g, q) r).1 = (takeIn (g, p) r).1 ∧
      (takeIn (g, p) r).2.SameStory (takeIn (g, q) r).2 := by
  obtain ⟨hingestor, hafterwards, hstory⟩ := g.handle_same h r
  refine ⟨?_, ?_⟩
  · unfold takeIn
    dsimp only
    rw [hafterwards, hingestor]
  · have hp := settle_sameStory ((g.handle p r).player, (g.handle p r).ticket)
    have hq := settle_sameStory ((g.handle q r).player, (g.handle q r).ticket)
    exact hp.symm.trans (hstory.trans hq)

end Ingestor

end StoryPlayer
