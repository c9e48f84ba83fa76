import StoryPlayer.Proofs.Player.Story
import StoryPlayer.Proofs.Script.Growing
import StoryPlayer.Proofs.Stream.Intake

/-!
# A story that streams in is the whole story

While a text comes, the player has the story of its complete lines, wherever the records were cut
and whenever playback was started. The done record adds what is left, so that in the end the player
has the story of the whole text.

The parts of this that change from record to record are the text sent so far, whose last line is the
line buffer, and the story of the lines before that one.
-/

namespace StoryPlayer

/-- Records that deliver a text of which a part was sent: chunks of it, setup records without text
or with what was sent, or with the first piece when nothing was, and last of all a done record with
the whole text, or without text when all was sent. -/
inductive Delivers (t : Text) : (sent : Text) → List StreamRecord → Prop
  | chunk {sent : Text} (piece : Text) {rs : List StreamRecord}
      (h : Delivers t (sent ++ piece) rs) : Delivers t sent (⟨.chunk, piece⟩ :: rs)
  | setup {sent text : Text} {rs : List StreamRecord} (htext : text = [] ∨ text = sent)
      (h : Delivers t sent rs) : Delivers t sent (⟨.setupReady, text⟩ :: rs)
  | first (piece : Text) {rs : List StreamRecord} (h : Delivers t piece rs) :
      Delivers t [] (⟨.setupReady, piece⟩ :: rs)
  | done {sent : Text} (h : sent <+: t) : Delivers t sent [⟨.done, t⟩]
  | doneEmpty : Delivers t t [⟨.done, []⟩]

namespace Ingestor

/-- A text was received: all of it is kept, and its last line once more. -/
structure Received (g : Ingestor) (sent : Text) : Prop where
  rawText : g.rawText = sent
  lineBuffer : g.lineBuffer = Text.lastLine sent

/-- A text is being received. Once playback has started there is some of it, and the player has the
story of its complete lines. -/
structure Receiving (g : Ingestor) (p : Player) (sent : Text) : Prop where
  received : g.Received sent
  unfinished : g.finished = false
  story : g.setupReady = true → sent ≠ [] ∧ p.streaming = true ∧ p.Holds (readFull sent)

/-- A text was received as a whole, and the player has its story. -/
structure Whole (g : Ingestor) (p : Player) (t : Text) : Prop where
  rawText : g.rawText = t
  lineBuffer : g.lineBuffer = []
  streaming : p.streaming = false
  story : p.Holds (readScript t Scene.empty)

theorem new_receiving (p : Player) : new.Receiving p [] :=
  ⟨⟨rfl, rfl⟩, rfl, nofun⟩

theorem Receiving.sameStory {g : Ingestor} {p q : Player} {sent : Text} (h : g.Receiving p sent)
    (hsame : p.SameStory q) : g.Receiving q sent where
  received := h.received
  unfinished := h.unfinished
  story hready := by
    obtain ⟨hsome, hstream, hstory⟩ := h.story hready
    exact ⟨hsome, hsame.streaming.trans hstream, hstory.sameStory hsame⟩

theorem Whole.sameStory {g : Ingestor} {p q : Player} {t : Text} (h : g.Whole p t)
    (hsame : p.SameStory q) : g.Whole q t :=
  ⟨h.rawText, h.lineBuffer, hsame.streaming.trans h.streaming, h.story.sameStory hsame⟩

theorem Whole.offer {g : Ingestor} {p : Player} {t : Text} (h : g.Whole p t) (final : Text) :
    (g.offer final).Whole p t :=
  ⟨h.rawText, h.lineBuffer, h.streaming, h.story⟩

/-! ## Taking text -/

/-- Text that is taken completes the lines behind those that were complete. -/
theorem Received.buffer {g : Ingestor} {sent : Text} (h : g.Received sent) (t : Text) :
    (g.buffer t).1.Received (sent ++ t) ∧
      Text.fullLines (sent ++ t) = Text.fullLines sent ++ (g.buffer t).2 := by
  refine ⟨⟨congrArg (· ++ t) h.rawText, ?_⟩, ?_⟩
  · rw [Text.lastLine_append, ← h.lineBuffer]
    rfl
  · rw [Text.fullLines_append, ← h.lineBuffer]
    rfl

/-- What was received is the complete lines, each with its line feed, and the line buffer. -/
theorem Received.completeText {g : Ingestor} {sent : Text} (h : g.Received sent) :
    sent = g.completeText ++ g.lineBuffer ∧
      Text.lines g.completeText = Text.fullLines sent ++ [[]] := by
  obtain ⟨u, hu, hlines⟩ := Text.exists_append_lastLine sent
  have hlength := congrArg List.length hu
  rw [List.length_append] at hlength
  have htext : g.completeText = u := by
    unfold Ingestor.completeText
    rw [h.rawText, h.lineBuffer]
    calc
      sent.take (sent.length - (Text.lastLine sent).length) = sent.take u.length := by
        rw [hlength, Nat.add_sub_cancel]
      _ = (u ++ Text.lastLine sent).take u.length := by rw [← hu]
      _ = u := List.take_left
  rw [htext, h.lineBuffer]
  exact ⟨hu, hlines⟩

theorem Received.readScript_completeText {g : Ingestor} {sent : Text} (h : g.Received sent) :
    readScript g.completeText Scene.empty = readFull sent :=
  readScript_eq_readFull h.completeText.2

theorem lastPart_nil (g : Ingestor) : g.lastPart [] = (g, []) := by
  unfold lastPart
  split <;> simp

/-- Whatever of the text the done record adds, it is taken like a chunk. -/
theorem Received.lastPart {g : Ingestor} {sent final t : Text} (h : g.Received sent)
    (hfinal : final = t ∧ sent <+: t ∨ final = [] ∧ sent = t) :
    (g.lastPart final).1.Received t ∧
      Text.fullLines t = Text.fullLines sent ++ (g.lastPart final).2 := by
  have hnothing : (g.lastPart []).1.Received sent ∧
      Text.fullLines sent = Text.fullLines sent ++ (g.lastPart []).2 := by
    rw [lastPart_nil, List.append_nil]
    exact ⟨h, rfl⟩
  rcases hfinal with ⟨rfl, rest, rfl⟩ | ⟨rfl, rfl⟩
  · by_cases hempty : sent ++ rest = []
    · obtain ⟨rfl, rfl⟩ := List.append_eq_nil_iff.mp hempty
      exact hnothing
    · have hafter : Text.after? g.rawText (sent ++ rest) = some rest := by
        rw [h.rawText, Text.after?_append]
      have hlast : g.lastPart (sent ++ rest) = g.buffer rest := by
        unfold Ingestor.lastPart
        rw [hafter]
        exact if_neg hempty
      rw [hlast]
      exact h.buffer rest
  · exact hnothing

/-! ## Handling records -/

theorem Received.start {g : Ingestor} {sent : Text} (h : g.Received sent)
    (hopen : g.finished = false) (hready : g.setupReady = false) (p : Player) :
    (g.start p).ingestor.Receiving (g.start p).player sent ∧
      (g.start p).afterwards = .nothing := by
  rw [start_eq]
  split
  · exact ⟨⟨h, hopen, fun heq => by cases hready.symm.trans heq⟩, rfl⟩
  next hcommands =>
    have hstream := ((p.setStreaming true).load g.completeText).start_sameStory.streaming
    have hstory := (p.setStreaming true).load_start_holds g.completeText
    rw [h.readScript_completeText] at hcommands hstory
    refine ⟨⟨⟨h.rawText, h.lineBuffer⟩, hopen, fun _ => ⟨?_, hstream, hstory⟩⟩, rfl⟩
    rintro rfl
    exact hcommands rfl

theorem Receiving.chunk {g : Ingestor} {p : Player} {sent : Text} (h : g.Receiving p sent)
    (t : Text) :
    (g.onChunk p t).ingestor.Receiving (g.onChunk p t).player (sent ++ t) ∧
      (g.onChunk p t).afterwards = .nothing := by
  obtain ⟨hreceived, hlines⟩ := h.received.buffer t
  have hopen : (g.buffer t).1.finished = false := h.unfinished
  rw [onChunk_eq]
  split
  next hready =>
    have hready' : (g.buffer t).1.setupReady = false := hready
    split
    · exact hreceived.start hopen hready' p
    · exact ⟨⟨hreceived, hopen, fun heq => by cases hready'.symm.trans heq⟩, rfl⟩
  next hready =>
    obtain ⟨hsome, hstream, hstory⟩ := h.story (eq_true_of_ne_false hready)
    have hsome' : sent ++ t ≠ [] := List.append_ne_nil_of_left_ne_nil hsome t
    split
    next hnone =>
      -- Without a complete line nothing is added, and the story of the complete lines is the same.
      rw [hnone] at hlines
      have hfull : readFull (sent ++ t) = readFull sent := by
        rw [readFull, hlines, List.append_nil, readFull]
      exact ⟨⟨hreceived, hopen, fun _ => ⟨hsome', hstream, hfull ▸ hstory⟩⟩, rfl⟩
    next hne =>
      have hfeeds : ∀ l ∈ (g.buffer t).2, '\n' ∉ l := by
        intro l hl
        refine Text.not_mem_of_mem_fullLines (t := sent ++ t) ?_
        rw [hlines]
        exact List.mem_append_right _ hl
      have happended := hstory.append (Text.join ['\n'] (g.buffer t).2)
      rw [readScript_join hne hfeeds, ← readFull_eq_append hlines] at happended
      have hsame := (p.append (Text.join ['\n'] (g.buffer t).2)).resume_sameStory
      have hstream' := hsame.streaming.trans hstream
      exact ⟨⟨hreceived, hopen, fun _ => ⟨hsome', hstream', happended.sameStory hsame⟩⟩, rfl⟩

theorem Received.takeSetup {g : Ingestor} {sent : Text} (h : g.Received sent) (t : Text) :
    (g.takeSetup t).Received (if sent = [] then t else sent) := by
  by_cases hempty : sent = []
  · subst hempty
    rw [if_pos rfl]
    by_cases ht : t = []
    · rw [Ingestor.takeSetup, if_neg (not_and_of_not_left _ (not_not_intro ht)), ht]
      exact ⟨h.rawText, h.lineBuffer⟩
    · obtain ⟨hbuffered, -⟩ := h.buffer t
      rw [Ingestor.takeSetup, if_pos ⟨ht, h.rawText⟩]
      exact ⟨hbuffered.rawText, hbuffered.lineBuffer⟩
  · have hraw : g.rawText ≠ [] := h.rawText ▸ hempty
    rw [if_neg hempty, Ingestor.takeSetup, if_neg (not_and_of_not_right _ hraw)]
    exact ⟨h.rawText, h.lineBuffer⟩

/-- The text of a setup record is the first piece when no other came before it. -/
theorem Receiving.setup {g : Ingestor} {p : Player} {sent : Text} (h : g.Receiving p sent)
    (t : Text) :
    (g.onSetup p t).ingestor.Receiving (g.onSetup p t).player (if sent = [] then t else sent) ∧
      (g.onSetup p t).afterwards = .nothing := by
  rw [onSetup_eq]
  split
  next hready =>
    rw [if_neg (h.story hready).1]
    exact ⟨h, rfl⟩
  next hready =>
    replace hready := eq_false_of_ne_true hready
    exact (h.received.takeSetup t).start ((takeSetup_finished g t).trans h.unfinished)
      ((takeSetup_setupReady g t).trans hready) p

/-- What is added when the text is done completes the story. -/
theorem readScript_pendingText {u : Ingestor × List Text} {sent t : Text} (h : u.1.Received t)
    (hlines : Text.fullLines t = Text.fullLines sent ++ u.2) :
    readScript t Scene.empty =
      (readFull sent).append (readScript (pendingText u) (readFull sent).scene) := by
  have hall : Text.lines t = Text.fullLines sent ++ (u.2 ++ [u.1.lineBuffer]) := by
    rw [Text.lines_eq, hlines, h.lineBuffer, List.append_assoc]
  have hne : u.2 ++ [u.1.lineBuffer] ≠ [] :=
    List.append_ne_nil_of_right_ne_nil _ (List.cons_ne_nil _ _)
  rw [readScript_eq_append hall, pendingText, readScript_join hne]
  intro l hl
  refine Text.not_mem_of_mem_pieces (t := t) ?_
  change l ∈ Text.lines t
  rw [hall]
  exact List.mem_append_right _ hl

theorem Receiving.done {g : Ingestor} {p : Player} {sent final t : Text} (h : g.Receiving p sent)
    (hfinal : final = t ∧ sent <+: t ∨ final = [] ∧ sent = t) :
    (g.onDone p final).ingestor.Whole (g.onDone p final).player t ∧
      (g.onDone p final).afterwards = .offer t := by
  have hreceived : { g with finished := true }.Received sent :=
    ⟨h.received.rawText, h.received.lineBuffer⟩
  obtain ⟨hlast, hlines⟩ := hreceived.lastPart hfinal
  have hsetup := lastPart_setupReady { g with finished := true } final
  rw [onDone_eq]
  generalize { g with finished := true }.lastPart final = u at hlast hlines hsetup ⊢
  dsimp only at hsetup ⊢
  have hoffer : (if final = [] then u.1.rawText else final) = t := by
    split
    · exact hlast.rawText
    next hne =>
      rcases hfinal with ⟨rfl, -⟩ | ⟨rfl, -⟩
      · rfl
      · exact absurd rfl hne
  rw [hoffer]
  split
  next hready =>
    have hstream := ((p.setStreaming false).load u.1.rawText).start_sameStory.streaming
    have hstory := (p.setStreaming false).load_start_holds u.1.rawText
    rw [hlast.rawText] at hstream hstory ⊢
    exact ⟨⟨rfl, rfl, hstream, hstory⟩, rfl⟩
  next hready =>
    obtain ⟨-, -, hstory⟩ := h.story (hsetup.symm.trans (eq_true_of_ne_false hready))
    have hwhole := readScript_pendingText hlast hlines
    have hfirst : (p.setStreaming false).Holds (readFull sent) :=
      ⟨hstory.commands, hstory.scene, hstory.choices⟩
    split
    next hblank =>
      -- What is left is blank and gives nothing.
      rw [readScript_of_blank hblank, Reading.append_blank] at hwhole
      have hsame := (p.setStreaming false).resume_sameStory
      exact ⟨⟨hlast.rawText, rfl, hsame.streaming, hwhole ▸ hfirst.sameStory hsame⟩, rfl⟩
    next hrest =>
      have hsame := ((p.setStreaming false).append (pendingText u)).resume_sameStory
      have happended := (hfirst.append (pendingText u)).sameStory hsame
      exact ⟨⟨hlast.rawText, rfl, hsame.streaming, hwhole ▸ happended⟩, rfl⟩

/-- A record that delivers a text goes on delivering it, or completes the story and leaves the
choices of the text to be offered. -/
theorem Receiving.handle {g : Ingestor} {p : Player} {sent t : Text} {r : StreamRecord}
    {rs : List StreamRecord} (h : g.Receiving p sent) (hrecords : Delivers t sent (r :: rs)) :
    (∃ sent', Delivers t sent' rs ∧
        (g.handle p r).ingestor.Receiving (g.handle p r).player sent' ∧
        (g.handle p r).afterwards = .nothing) ∨
      rs = [] ∧ (g.handle p r).ingestor.Whole (g.handle p r).player t ∧
        (g.handle p r).afterwards = .offer t := by
  have hopen : ¬g.finished = true := by simp [h.unfinished]
  unfold Ingestor.handle
  rw [if_neg hopen]
  cases hrecords with
  | chunk piece hrest => exact .inl ⟨_, hrest, h.chunk piece⟩
  | @setup _ text _ htext hrest =>
    have hsetup := h.setup text
    have hsent : (if sent = [] then text else sent) = sent := by
      split
      next hempty => rw [hempty] at htext ⊢; exact htext.elim id id
      next => rfl
    rw [hsent] at hsetup
    exact .inl ⟨_, hrest, hsetup⟩
  | first piece hrest => exact .inl ⟨_, hrest, h.setup piece⟩
  | done hsent => exact .inr ⟨rfl, h.done (.inl ⟨rfl, hsent⟩)⟩
  | doneEmpty => exact .inr ⟨rfl, h.done (.inr ⟨rfl, rfl⟩)⟩

end Ingestor

end StoryPlayer
