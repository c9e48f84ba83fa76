import StoryPlayer.Proofs.Playback.Streaming
import StoryPlayer.Proofs.Stream.Opening
import StoryPlayer.Proofs.Text.Trimmed

/-!
# A stream that is done before playback has started

Where no record has started playback, the done record does. What it plays and what it offers are
found in two ways. Played is what was received, and the final text only where it goes on from that.
Offered are the choices of the final text, whatever was received. A final text that says something
else than the records before it is therefore never played, and its choices stand beside another
story.
-/

namespace StoryPlayer

namespace Ingestor

variable {g : Ingestor} {p : Player} {sent : Text}

/-- A final text counts for the story only where it goes on from what was received. -/
theorem Received.lastPart_rawText (h : g.Received sent) (final : Text) :
    (g.lastPart final).1.rawText = if sent <+: final then final else sent := by
  split
  next hextends => exact (h.lastPart (.inl ⟨rfl, hextends⟩)).1.rawText
  next hother =>
    have hnone : Text.after? g.rawText final = none := by
      refine Option.eq_none_iff_forall_ne_some.mpr fun rest hrest => hother ?_
      rw [h.rawText] at hrest
      exact ⟨rest, (Text.after?_eq_some hrest).symm⟩
    unfold Ingestor.lastPart
    rw [hnone]
    exact h.rawText

/-- The done record that starts playback. -/
theorem Receiving.done_first (h : g.Receiving p sent) (hready : g.setupReady = false)
    (final : Text) :
    (g.onDone p final).player.Holds
        (readScript (if sent <+: final then final else sent) Scene.empty) ∧
      (g.onDone p final).afterwards = .offer (if final = [] then sent else final) := by
  have hreceived : { g with finished := true }.Received sent :=
    ⟨h.received.rawText, h.received.lineBuffer⟩
  have hraw := hreceived.lastPart_rawText final
  have hsetup := (lastPart_setupReady { g with finished := true } final).trans hready
  have hoffer : (if final = [] then ({ g with finished := true }.lastPart final).1.rawText
      else final) = if final = [] then sent else final := by
    split
    next hempty =>
      rw [hempty, lastPart_nil]
      exact h.received.rawText
    next => rfl
  have hdone := onDone_eq g p final
  dsimp only at hdone
  rw [hoffer, if_pos hsetup, hraw] at hdone
  rw [hdone]
  exact ⟨Player.load_start_holds _ _, rfl⟩

theorem handle_done (hopen : g.finished = false) (p : Player) (final : Text) :
    g.handle p ⟨.done, final⟩ = g.onDone p final := by
  unfold handle
  rw [if_neg (by simp [hopen])]

/-- The records that only bring text. -/
theorem Receiving.handle_text (h : g.Receiving p sent) {r : StreamRecord}
    (hr : r.kind = .chunk ∨ r.kind = .setupReady) :
    (g.handle p r).ingestor.Receiving (g.handle p r).player (grown sent r) ∧
      (g.handle p r).afterwards = .nothing := by
  have hopen : ¬g.finished = true := by simp [h.unfinished]
  unfold Ingestor.handle grown
  rw [if_neg hopen]
  rcases hr with hr | hr
  · rw [hr]
    exact h.chunk r.text
  · rw [hr]
    exact h.setup r.text

end Ingestor

namespace Playback

variable {s : Playback} {sent : Text} {ms : List Move}

/-- Whatever is played between them, the text of the records adds up. -/
theorem Receiving.run_text (h : s.Receiving sent) (hms : ∀ m ∈ ms, m.isPlayback = true)
    (hsource : .giveUp ∉ ms)
    (hrecords : ∀ r ∈ ms.filterMap Move.record?, r.kind = .chunk ∨ r.kind = .setupReady) :
    (s.run ms).Receiving ((ms.filterMap Move.record?).foldl grown sent) := by
  induction ms generalizing s sent with
  | nil => exact h
  | cons m ms ih =>
    have hm := hms m List.mem_cons_self
    have hms' : ∀ n ∈ ms, n.isPlayback = true := fun n hn => hms n (List.mem_cons_of_mem m hn)
    obtain ⟨hgive, hsource'⟩ := List.ne_and_not_mem_of_not_mem_cons hsource
    cases hrecord : m.record? with
    | none =>
      rw [List.filterMap_cons_none hrecord] at hrecords ⊢
      exact ih (h.step hm hrecord hgive.symm) hms' hsource' hrecords
    | some r =>
      obtain rfl : m = .handle r := by
        cases m <;> cases hrecord
        rfl
      rw [List.filterMap_cons_some hrecord] at hrecords ⊢
      rw [List.forall_mem_cons] at hrecords
      obtain ⟨hreceiving, hnothing⟩ := h.ingestor.handle_text hrecords.1
      exact ih (h.step_handle hreceiving hnothing) hms' hsource' hrecords.2

/-- Where playback has not started before the done record comes, that record starts it with what was
received, and with the final text just if that goes on from it. The choices are those of the final
text, or of what was received when there is none, and they are offered once, when the handling
returns, which renders that are done bring about. The two come from one text just if the final text
goes on from what was received, there is none, or both give the same commands. None of this is
changed by what is played later. -/
theorem run_done_first (h : s.Fresh) (hms : ∀ m ∈ ms, m.isPlayback = true)
    (hsource : .giveUp ∉ ms)
    (hrecords : ∀ r ∈ ms.filterMap Move.record?, r.kind = .chunk ∨ r.kind = .setupReady)
    (hready : (s.run ms).ingestor.setupReady = false) (final : Text) {later : List Move}
    (hlater : ∀ m ∈ later, m.isPlayback = true ∧ m.record? = none ∧ m ≠ .giveUp) :
    let sent := receivedText (ms.filterMap Move.record?)
    let whole := if final = [] then sent else final
    let played := if sent <+: final then final else sent
    let e := ((s.run ms).step (.handle ⟨.done, final⟩)).run later
    e.player.Holds (readScript played Scene.empty) ∧
      (e.offers = [] → e.ingestor.choices = (readScript whole Scene.empty).offered ∧
        e.offered = [(readScript whole Scene.empty).offered]) ∧
      (∃ n, (e.run (List.replicate n (.complete 0))).offers = []) ∧
      (e.player.store.commands = (readScript whole Scene.empty).commands ↔
        sent <+: final ∨ final = [] ∨
          (readScript sent Scene.empty).commands = (readScript final Scene.empty).commands) := by
  intro sent whole played e
  have hreceiving : (s.run ms).Receiving sent := h.receiving.run_text hms hsource hrecords
  have hhandle := Ingestor.handle_done hreceiving.ingestor.unfinished (s.run ms).player final
  obtain ⟨hstory, hoffer⟩ := hreceiving.ingestor.done_first hready final
  rw [← hhandle] at hstory hoffer
  rw [← step_handle_player] at hstory
  have hoffering := step_handle_offering hreceiving.offers hreceiving.offered hoffer
  obtain ⟨hholds, hdue⟩ : e.player.Holds (readScript played Scene.empty) ∧ e.Offering whole := by
    refine run_keeps (fun u => u.player.Holds (readScript played Scene.empty) ∧ u.Offering whole)
      (fun m => m.isPlayback = true ∧ m.record? = none ∧ m ≠ .giveUp) ?_ _ ⟨hstory, hoffering⟩
      later hlater
    rintro u m ⟨hm, hrecord, hgive⟩ ⟨hu, hu'⟩
    exact ⟨hu.sameStory (u.step_sameStory hm hrecord hgive), hu'.step hrecord hgive⟩
  refine ⟨hholds, hdue.of_offers_eq_nil, ?_, ?_⟩
  · obtain ⟨n, hn⟩ := e.run_drains
    exact ⟨n, by rw [offers, hn, List.filterMap_nil]⟩
  · rw [hholds.commands]
    by_cases hextends : sent <+: final
    · have hplayed : played = final := if_pos hextends
      have hwhole : whole = final := by
        by_cases hempty : final = []
        · rw [hempty, List.prefix_nil] at hextends
          exact (if_pos hempty).trans (hextends.trans hempty.symm)
        · exact if_neg hempty
      rw [hplayed, hwhole]
      exact iff_of_true rfl (.inl hextends)
    · have hplayed : played = sent := if_neg hextends
      rw [hplayed]
      by_cases hempty : final = []
      · have hwhole : whole = sent := if_pos hempty
        rw [hwhole]
        exact iff_of_true rfl (.inr (.inl hempty))
      · have hwhole : whole = final := if_neg hempty
        rw [hwhole]
        simp only [hextends, hempty, false_or]

/-- The final text goes on from a line that was cut, and the player is asked to go on before the
first render is done. -/
theorem run_done_first_extended :
    let ms : List Move := [.handle ⟨.chunk, ['L', 'O', 'C', ':', 'b', '\n', 'x']⟩]
    let final : Text := ['L', 'O', 'C', ':', 'b', '\n', 'x', 'y', '\n', 'S', 'T', 'P', ':', 'c']
    let later : List Move := [.ask .advance, .complete 0]
    (new .default).Fresh ∧ (∀ m ∈ ms, m.isPlayback = true) ∧ .giveUp ∉ ms ∧
      (∀ r ∈ ms.filterMap Move.record?, r.kind = .chunk ∨ r.kind = .setupReady) ∧
      ((new .default).run ms).ingestor.setupReady = false ∧
      (∀ m ∈ later, m.isPlayback = true ∧ m.record? = none ∧ m ≠ .giveUp) ∧
      ((((new .default).run ms).step (.handle ⟨.done, final⟩)).run later).player.store.commands =
        (readScript final Scene.empty).commands ∧
      ((((new .default).run ms).step (.handle ⟨.done, final⟩)).run later).ingestor.choices = [['c']] ∧
      ((((new .default).run ms).step (.handle ⟨.done, final⟩)).run later).offered = [[['c']]] := by
  intro ms final later
  have hfresh : (new .default).Fresh := ⟨rfl, rfl, rfl⟩
  have hms : ∀ m ∈ ms, m.isPlayback = true := by decide
  have hsource : .giveUp ∉ ms := by decide
  have hrecords : ∀ r ∈ ms.filterMap Move.record?, r.kind = .chunk ∨ r.kind = .setupReady := by
    decide
  have hready : ((new .default).run ms).ingestor.setupReady = false := by decide +kernel
  have hlater : ∀ m ∈ later, m.isPlayback = true ∧ m.record? = none ∧ m ≠ .giveUp := by decide
  obtain ⟨-, hoffered, -, hsame⟩ :=
    run_done_first hfresh hms hsource hrecords hready final hlater
  have hreturned :
      ((((new .default).run ms).step (.handle ⟨.done, final⟩)).run later).offers = [] := by
    decide +kernel
  have hfinal : final ≠ [] := by decide
  rw [if_neg hfinal] at hoffered hsame
  obtain ⟨hchoices, honce⟩ := hoffered hreturned
  have hread : (readScript final Scene.empty).offered = [['c']] := by decide +kernel
  have hextends : receivedText (ms.filterMap Move.record?) <+: final := by decide
  rw [hread] at hchoices honce
  exact ⟨hfresh, hms, hsource, hrecords, hready, hlater, hsame.mpr (.inl hextends), hchoices, honce⟩

/-- A final text that says something else than the chunk before it is not played, and yet its
choices are offered. -/
theorem run_done_first_contradicted :
    let final : Text := ['B', '\n', 'S', 'T', 'P', ':', 'c']
    let s := (new .default).run [.handle ⟨.chunk, ['A']⟩]
    let e := s.run [.handle ⟨.done, final⟩, .complete 0]
    s.ingestor.setupReady = false ∧ e.offered = [(readScript final Scene.empty).offered] ∧
      e.player.store.commands = (readScript ['A'] Scene.empty).commands ∧
      e.player.store.commands ≠ (readScript final Scene.empty).commands := by
  intro final s e
  refine ⟨?_, ?_, ?_, ?_⟩ <;> decide +kernel

end Playback

end StoryPlayer
