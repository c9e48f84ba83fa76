import StoryPlayer.Proofs.Player.Turn
import StoryPlayer.Stream.Ingestor

/-!
# What an ingestor asks of the player

An ingestor deals with the player only by asking it, and every record leads to one of few lists of
requests: none at all, those that start the story, those that add to it, and those that end the
stream. `Ingestor.Intake` says which, and what it means for the ingestor.
-/

namespace StoryPlayer

/-- Answers requests one after another: the player after them and the renders asked for. -/
def Player.askAll (p : Player) : List Request → Player × List Ticket
  | [] => (p, [])
  | r :: rs =>
    let (q, ts) := (p.ask r).1.askAll rs
    (q, (p.ask r).2.toList ++ ts)

namespace Ingestor

/-- The requests that a record, or the failure of its source, leads to, the ingestor behind it and
what is left to do when the player has settled. -/
inductive Intake (g : Ingestor) : List Request → Ingestor → Afterwards → Prop
  /-- Nothing comes of it for the player. -/
  | ignore {g' : Ingestor} (hready : g'.setupReady = g.setupReady)
      (hfinished : g'.finished = g.finished) : Intake g [] g' .nothing
  /-- Playback starts with what has come. -/
  | begin {g' : Ingestor} {t : Text} (hcommands : (readScript t Scene.empty).commands ≠ [])
      (hopen : g.finished = false) (hready : g.setupReady = false) (hready' : g'.setupReady = true)
      (hopen' : g'.finished = false) :
      Intake g [.streaming true, .load t, .start] g' .nothing
  /-- Lines are added. -/
  | extend {g' : Ingestor} (t : Text) (hopen : g.finished = false) (hready : g.setupReady = true)
      (hready' : g'.setupReady = true) (hopen' : g'.finished = false) :
      Intake g [.append t, .resume] g' .nothing
  /-- The stream is done before playback has started. -/
  | whole {g' : Ingestor} (t final : Text) (hopen : g.finished = false)
      (hready : g.setupReady = false) (hready' : g'.setupReady = true)
      (hfinished' : g'.finished = true) :
      Intake g [.streaming false, .load t, .start] g' (.offer final)
  /-- The stream is done, and the rest of it is added unless it is blank. -/
  | close {g' : Ingestor} {rest : List Request} (final : Text) (hopen : g.finished = false)
      (hready : g.setupReady = true) (hready' : g'.setupReady = true)
      (hfinished' : g'.finished = true) (hrest : rest = [] ∨ ∃ t, rest = [.append t]) :
      Intake g (.streaming false :: rest ++ [.resume]) g' (.offer final)
  /-- The stream has failed. -/
  | fail (a : Afterwards) :
      Intake g [.streaming false, .resume] { g with finished := true } a

/-- While the stream goes on, a record is ignored, starts the story or adds to it. -/
theorem Intake.of_open {g g' : Ingestor} {rs : List Request} {a : Afterwards}
    (h : g.Intake rs g' a) (hopen : g'.finished = false) :
    a = .nothing ∧
      (rs = [] ∧ g'.setupReady = g.setupReady ∨
        (∃ t, rs = [.streaming true, .load t, .start]) ∧ g.setupReady = false ∧
            g'.setupReady = true ∨
        (∃ t, rs = [.append t, .resume]) ∧ g.setupReady = true ∧ g'.setupReady = true) := by
  cases h with
  | ignore hready hfinished => exact ⟨rfl, .inl ⟨rfl, hready⟩⟩
  | begin hcommands _ hready hready' _ => exact ⟨rfl, .inr (.inl ⟨⟨_, rfl⟩, hready, hready'⟩)⟩
  | extend t _ hready hready' _ => exact ⟨rfl, .inr (.inr ⟨⟨t, rfl⟩, hready, hready'⟩)⟩
  | whole t final _ _ _ hfinished' => cases hopen.symm.trans hfinished'
  | close final _ _ _ hfinished' _ => cases hopen.symm.trans hfinished'
  | fail a => cases hopen

/-- A handling leads to one of the lists of requests. -/
def Takes (g : Ingestor) (p : Player) (h : Handling) : Prop :=
  ∃ rs, g.Intake rs h.ingestor h.afterwards ∧ p.askAll rs = (h.player, h.ticket.toList)

/-- The ingestor behind the last part of a final text that goes on from what was received, and the
lines that it completed. -/
def lastPart (g : Ingestor) (final : Text) : Ingestor × List Text :=
  match Text.after? g.rawText final with
  | some rest => if final = [] then (g, []) else g.buffer rest
  | none => (g, [])

theorem lastPart_setupReady (g : Ingestor) (final : Text) :
    (g.lastPart final).1.setupReady = g.setupReady := by
  unfold lastPart
  split
  · split <;> rfl
  · rfl

theorem lastPart_finished (g : Ingestor) (final : Text) :
    (g.lastPart final).1.finished = g.finished := by
  unfold lastPart
  split
  · split <;> rfl
  · rfl

theorem start_eq (g : Ingestor) (p : Player) :
    g.start p =
      if (readScript g.completeText Scene.empty).commands = [] then g.leave (p, none)
      else { g with setupReady := true }.leave
        ((p.setStreaming true).load g.completeText).start := rfl

theorem onChunk_eq (g : Ingestor) (p : Player) (t : Text) :
    g.onChunk p t =
      if g.setupReady = false then
        if g.setupRequested || hasHeader (g.buffer t).1.completeText then (g.buffer t).1.start p
        else (g.buffer t).1.leave (p, none)
      else if (g.buffer t).2 = [] then (g.buffer t).1.leave (p, none)
      else (g.buffer t).1.leave (p.append (Text.join ['\n'] (g.buffer t).2)).resume := rfl

/-- The ingestor that has taken a setup record. -/
def takeSetup (g : Ingestor) (t : Text) : Ingestor :=
  { (if t ≠ [] ∧ g.rawText = [] then (g.buffer t).1 else g) with setupRequested := true }

theorem onSetup_eq (g : Ingestor) (p : Player) (t : Text) :
    g.onSetup p t = if g.setupReady then g.leave (p, none) else (g.takeSetup t).start p := rfl

theorem takeSetup_setupReady (g : Ingestor) (t : Text) :
    (g.takeSetup t).setupReady = g.setupReady := by
  unfold takeSetup
  split <;> rfl

theorem takeSetup_finished (g : Ingestor) (t : Text) : (g.takeSetup t).finished = g.finished := by
  unfold takeSetup
  split <;> rfl

/-- What of the final text is added when it is done. -/
def pendingText (u : Ingestor × List Text) : Text :=
  Text.join ['\n'] (u.2 ++ [u.1.lineBuffer])

theorem onDone_eq (g : Ingestor) (p : Player) (final : Text) :
    g.onDone p final =
      let u := { g with finished := true }.lastPart final
      let offered := Afterwards.offer (if final = [] then u.1.rawText else final)
      if u.1.setupReady = false then
        let w := ((p.setStreaming false).load u.1.rawText).start
        ⟨{ u.1 with setupReady := true, lineBuffer := [] }, w.1, w.2, offered⟩
      else
        let w := (if Text.trim (pendingText u) = [] then p.setStreaming false
          else (p.setStreaming false).append (pendingText u)).resume
        ⟨{ u.1 with lineBuffer := [] }, w.1, w.2, offered⟩ := rfl

theorem Takes.nothing {g g' : Ingestor} {p : Player} (hready : g'.setupReady = g.setupReady)
    (hfinished : g'.finished = g.finished) : g.Takes p (g'.leave (p, none)) :=
  ⟨[], .ignore hready hfinished, rfl⟩

theorem start_takes {g g' : Ingestor} (p : Player) (hopen : g.finished = false)
    (hready : g.setupReady = false) (hready' : g'.setupReady = false)
    (hopen' : g'.finished = false) : g.Takes p (g'.start p) := by
  rw [start_eq]
  split
  · exact .nothing (hready'.trans hready.symm) (hopen'.trans hopen.symm)
  next hcommands =>
    refine ⟨_, .begin hcommands hopen hready rfl hopen', ?_⟩
    simp [Player.askAll, Player.ask, leave]

theorem onChunk_takes (g : Ingestor) (p : Player) (t : Text) (hopen : g.finished = false) :
    g.Takes p (g.onChunk p t) := by
  rw [onChunk_eq]
  split
  next hready =>
    split
    · exact start_takes p hopen hready hready hopen
    · exact .nothing rfl rfl
  next hready =>
    replace hready := eq_true_of_ne_false hready
    split
    · exact .nothing rfl rfl
    · refine ⟨_, .extend (Text.join ['\n'] (g.buffer t).2) hopen hready hready hopen, ?_⟩
      simp [Player.askAll, Player.ask, leave]

theorem onSetup_takes (g : Ingestor) (p : Player) (t : Text) (hopen : g.finished = false) :
    g.Takes p (g.onSetup p t) := by
  rw [onSetup_eq]
  split
  · exact .nothing rfl rfl
  next hready =>
    replace hready := eq_false_of_ne_true hready
    exact start_takes p hopen hready ((takeSetup_setupReady g t).trans hready)
      ((takeSetup_finished g t).trans hopen)

theorem onDone_takes (g : Ingestor) (p : Player) (final : Text) (hopen : g.finished = false) :
    g.Takes p (g.onDone p final) := by
  rw [onDone_eq]
  have hsetup := lastPart_setupReady { g with finished := true } final
  have hdone := lastPart_finished { g with finished := true } final
  generalize { g with finished := true }.lastPart final = u at hsetup hdone ⊢
  dsimp only at hsetup hdone ⊢
  split
  next hready =>
    refine ⟨_, .whole u.1.rawText _ hopen (hsetup.symm.trans hready) rfl hdone, ?_⟩
    simp [Player.askAll, Player.ask]
  next hready =>
    replace hready := eq_true_of_ne_false hready
    have hready₀ := hsetup.symm.trans hready
    split
    · refine ⟨_, .close _ hopen hready₀ hready hdone (.inl rfl), ?_⟩
      simp [Player.askAll, Player.ask]
    · refine ⟨_, .close _ hopen hready₀ hready hdone (.inr ⟨pendingText u, rfl⟩), ?_⟩
      simp [Player.askAll, Player.ask]

/-- Whatever record comes, the ingestor asks the player for one of the lists of requests. -/
theorem handle_takes (g : Ingestor) (p : Player) (r : StreamRecord) : g.Takes p (g.handle p r) := by
  unfold handle
  split
  · exact .nothing rfl rfl
  next hopen =>
    replace hopen := eq_false_of_ne_true hopen
    split
    · exact g.onChunk_takes p _ hopen
    · exact g.onSetup_takes p _ hopen
    · exact g.onDone_takes p _ hopen
    · exact ⟨_, .fail _, by simp [Player.askAll, Player.ask, failWith, abort]⟩

end Ingestor

end StoryPlayer
