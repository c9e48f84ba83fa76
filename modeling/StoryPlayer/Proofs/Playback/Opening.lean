import StoryPlayer.Proofs.Playback.Streaming
import StoryPlayer.Proofs.Playback.Timer
import StoryPlayer.Proofs.Stream.Opening

/-!
# Playing around the start of a stream

Until a stream has started playback, its records do nothing to the player: it is where playing alone
would have taken it. The record that starts playback empties the stage, and none does so again.
Playing never empties it.
-/

namespace StoryPlayer

namespace Player

/-- How often the stage was emptied. -/
def resets (p : Player) : Nat :=
  p.cues.count .reset

theorem cue_resets (p : Player) {c : Cue} (h : c ≠ .reset) : (p.cue c).resets = p.resets := by
  simp [resets, cue, h]

theorem notify_resets (p : Player) : p.notify.resets = p.resets :=
  p.cue_resets nofun

theorem load_resets (p : Player) (t : Text) : (p.load t).resets = p.resets + 1 := by
  have hreset : (p.cue .reset).resets = p.resets + 1 := by simp [resets, cue]
  exact (notify_resets _).trans hreset

theorem process_resets (p : Player) : (process p).1.resets = p.resets := by
  cases hc : p.store.current? with
  | none => rw [process_of_none hc]; rfl
  | some c =>
    rw [process_of_some hc]
    exact cue_resets _ nofun

theorem finishReveal_resets (p : Player) (session : Nat) :
    (p.finishReveal session).resets = p.resets := by
  obtain ⟨t, ts, n, heq⟩ := p.exists_finishReveal session
  rw [heq]
  exact notify_resets _

/-- Only loading empties the stage. -/
theorem Turn.resets {p : Player} {c : Trigger} {w : Waiting} (h : p.Turn c w)
    (hc : ∀ t, c ≠ .request (.load t)) : w.1.resets = p.resets := by
  cases h with
  | stay | append | stream | seek | textSpeed | autoSpeed | runOut | exhaust | spent | late
  | disarmed | lapse | fail => rfl
  | load t => exact absurd rfl (hc t)
  | toggle r =>
    obtain ⟨t, ts, n, heq⟩ := p.exists_toggleAuto
    rw [heq]
    rfl
  | finish | reveal | showNext => exact notify_resets _
  | skip r hphase =>
    rw [skip_of_typing hphase]
    exact finishReveal_resets _ _
  | restart | back | onward => exact process_resets _
  | stayOn h htext hcast =>
    obtain ⟨t, ts, n, heq⟩ := p.exists_stayOn
    rw [heq]
    rfl
  | showLast h hjob => exact (finishReveal_resets _ _).trans (notify_resets _)
  | showNone h hjob => exact finishReveal_resets _ _

theorem ask_resets (p : Player) {r : Request} (hr : ∀ t, r ≠ .load t) :
    (p.ask r).1.resets = p.resets :=
  (p.ask_turn r).resets fun t ht => hr t (Trigger.request.inj ht)

end Player

namespace Ingestor

variable {g : Ingestor} {p : Player} {rs : List StreamRecord} {r : StreamRecord}

/-- What a record does to the player: nothing until it starts playback, which empties the stage
once. -/
theorem Opening.handle_player (h : g.Opening p rs) (hr : r.kind = .chunk ∨ r.kind = .setupReady) :
    (g.handle p r).afterwards = .nothing ∧
      ((g.handle p r).ingestor.setupReady = false →
        (g.handle p r).player = p ∧ (g.handle p r).ticket = none) ∧
      (g.handle p r).player.resets + g.setupReady.toNat =
        p.resets + (g.handle p r).ingestor.setupReady.toNat := by
  obtain ⟨requests, hintake, hasked⟩ := g.handle_takes p r
  obtain ⟨hnothing, hrequests⟩ := hintake.of_open (h.handle hr).receiving.unfinished
  refine ⟨hnothing, ?_⟩
  rcases hrequests with
    ⟨rfl, hready⟩ | ⟨⟨t, rfl⟩, hready, hready'⟩ | ⟨⟨t, rfl⟩, hready, hready'⟩
  · obtain ⟨hplayer, hticket⟩ := Prod.mk.inj hasked
    have hnone : (g.handle p r).ticket = none := by simpa using hticket.symm
    exact ⟨fun _ => ⟨hplayer.symm, hnone⟩, by rw [← hplayer, hready]⟩
  · refine ⟨fun hnot => (by cases hready'.symm.trans hnot), ?_⟩
    have hstart := ((p.setStreaming true).load t).ask_resets (r := .start) nofun
    have hload := (p.setStreaming true).load_resets t
    rw [hready, hready', ← (Prod.mk.inj hasked).1]
    exact hstart.trans hload
  · refine ⟨fun hnot => (by cases hready'.symm.trans hnot), ?_⟩
    have hresume := (p.append t).ask_resets (r := .resume) nofun
    rw [hready, hready', ← (Prod.mk.inj hasked).1]
    exact congrArg (· + 1) hresume

end Ingestor

namespace Playback

/-- Two playbacks that nothing but their ingestors tells apart. -/
structure Alike (s u : Playback) : Prop where
  player : u.player = s.player
  suspended : u.suspended = s.suspended

theorem Alike.trans {s u v : Playback} (h : s.Alike u) (h' : u.Alike v) : s.Alike v :=
  ⟨h'.player.trans h.player, h'.suspended.trans h.suspended⟩

theorem Alike.leave {s u : Playback} (h : s.Alike u) (w : Waiting) (a : Afterwards) :
    (s.leave w a).Alike (u.leave w a) := by
  unfold Playback.leave
  split
  · exact ⟨rfl, congrArg (· ++ _) h.suspended⟩
  · cases a <;> exact ⟨rfl, h.suspended⟩

/-- Playing does not depend on the ingestor. -/
theorem Alike.step {s u : Playback} (h : s.Alike u) {m : Move} (hrecord : m.record? = none)
    (hsource : m ≠ .giveUp) : (s.step m).Alike (u.step m) := by
  cases m with
  | handle r => cases hrecord
  | giveUp => exact absurd rfl hsource
  | ask r =>
    simp only [Playback.step, h.player]
    exact h.leave _ _
  | complete i =>
    simp only [Playback.step, h.suspended, h.player]
    split
    · exact h
    · refine Alike.leave ?_ _ _
      exact ⟨rfl, rfl⟩
  | fire i =>
    simp only [Playback.step, tasks, h.player]
    split
    · exact h
    · exact h.leave _ _

/-- A playback that a fresh ingestor has fed since `s`, when these records have come and playing
alone would have led to `u`. -/
structure Opening (s u e : Playback) (rs : List StreamRecord) : Prop where
  ingestor : e.ingestor.Opening e.player rs
  offers : e.offers = []
  resets : e.player.resets = s.player.resets + e.ingestor.setupReady.toNat
  untouched : e.ingestor.setupReady = false → u.Alike e

theorem Fresh.opening {s : Playback} (h : s.Fresh) : Opening s s s [] where
  ingestor := by
    rw [h.ingestor]
    exact Ingestor.new_opening s.player
  offers := h.offers
  resets := by
    rw [h.ingestor]
    rfl
  untouched _ := ⟨rfl, rfl⟩

section

variable {s u e : Playback} {rs : List StreamRecord}

theorem Opening.step (h : Opening s u e rs) {m : Move} (hm : m.isPlayback = true)
    (hrecord : m.record? = none) (hsource : m ≠ .giveUp) : Opening s (u.step m) (e.step m) rs := by
  obtain ⟨hoffers, -, hingestor⟩ := step_of_offers_eq_nil h.offers hrecord hsource
  have hresets : (e.step m).player.resets = e.player.resets := by
    refine step_relates (fun p q => q.resets = p.resets) (fun _ => rfl) (fun h => h) ?_ e hm hrecord
      hsource
    intro p c w hturn hc
    refine hturn.resets ?_
    rintro t rfl
    cases hc
  refine ⟨?_, hoffers, ?_, ?_⟩
  · rw [hingestor]
    exact h.ingestor.sameStory (e.step_sameStory hm hrecord hsource)
  · rw [hingestor, hresets, h.resets]
  · rw [hingestor]
    exact fun hready => (h.untouched hready).step hrecord hsource

/-- A record that does nothing to the player leaves all else alone as well. -/
theorem step_handle_alike {r : StreamRecord}
    (hplayer : (e.ingestor.handle e.player r).player = e.player)
    (hticket : (e.ingestor.handle e.player r).ticket = none)
    (hnothing : (e.ingestor.handle e.player r).afterwards = .nothing) :
    e.Alike (e.step (.handle r)) := by
  simp only [Playback.step, Playback.leave, hplayer, hticket, hnothing]
  exact ⟨rfl, rfl⟩

theorem Opening.handle (h : Opening s u e rs) {r : StreamRecord}
    (hr : r.kind = .chunk ∨ r.kind = .setupReady) :
    Opening s u (e.step (.handle r)) (rs ++ [r]) := by
  obtain ⟨hnothing, huntouched, hresets⟩ := h.ingestor.handle_player hr
  have hplayer := e.step_handle_player r
  have hoffers := e.step_handle_offers r
  have hopening := h.ingestor.handle hr
  rw [hnothing, h.offers] at hoffers
  rcases hoffers with ⟨hoffers, -, hingestor⟩ | ⟨final, hfinal, -⟩
  · refine ⟨?_, hoffers, ?_, ?_⟩
    · rwa [hingestor, hplayer]
    · have hbefore := h.resets
      rw [hingestor, hplayer]
      omega
    · rw [hingestor]
      intro hready
      obtain ⟨hsame, hticket⟩ := huntouched hready
      have hbefore : e.ingestor.setupReady = false := by
        refine eq_false_of_ne_true fun hbefore => ?_
        have hopens := (h.ingestor.opens.mp hbefore).concat r
        cases hready.symm.trans (hopening.opens.mpr hopens)
      exact (h.untouched hbefore).trans (step_handle_alike hsame hticket hnothing)
  · cases hfinal

end

theorem Fresh.opening_run {s : Playback} (h : s.Fresh) {ms : List Move}
    (hms : ∀ m ∈ ms, m.isPlayback = true) (hsource : .giveUp ∉ ms)
    (hrecords : ∀ r ∈ ms.filterMap Move.record?, r.kind = .chunk ∨ r.kind = .setupReady) :
    Opening s (s.run (ms.filter fun m => m.record?.isNone)) (s.run ms)
      (ms.filterMap Move.record?) := by
  induction ms using List.reverseRecOn with
  | nil => exact h.opening
  | append_singleton ms m ih =>
    rw [List.forall_mem_append] at hms
    rw [List.filterMap_append, List.forall_mem_append] at hrecords
    rw [List.mem_append, not_or] at hsource
    have hbefore := ih hms.1 hsource.1 hrecords.1
    have hm := hms.2 m List.mem_cons_self
    rw [run_concat, List.filter_append, List.filterMap_append]
    cases hrecord : m.record? with
    | none =>
      have hgive : m ≠ .giveUp := fun heq => hsource.2 (List.mem_singleton.mpr heq.symm)
      have hstep := hbefore.step hm hrecord hgive
      rw [← run_concat] at hstep
      simpa [hrecord] using hstep
    | some r =>
      obtain rfl : m = .handle r := by
        cases m <;> cases hrecord
        rfl
      have hstep := hbefore.handle (hrecords.2 r List.mem_cons_self)
      simpa [Move.record?] using hstep

/-- While chunks and setup records come, with anything played between them, an ingestor keeps the
text that it has received as its complete lines and its line buffer. Playback is started as soon as
the complete lines hold a command and a setup record has come or there is a header. Until then the
records do nothing: the player is where playing alone would have taken it. From then on it has the
story of the complete lines, the story is streaming in, and the stage was emptied once. -/
theorem run_opens {s : Playback} (h : s.Fresh) {ms : List Move}
    (hms : ∀ m ∈ ms, m.isPlayback = true) (hsource : .giveUp ∉ ms)
    (hrecords : ∀ r ∈ ms.filterMap Move.record?, r.kind = .chunk ∨ r.kind = .setupReady) :
    let e := s.run ms
    let rs := ms.filterMap Move.record?
    let g := e.ingestor
    let r := readScript g.completeText Scene.empty
    g.rawText = receivedText rs ∧ g.rawText = g.completeText ++ g.lineBuffer ∧
      '\n' ∉ g.lineBuffer ∧ (g.completeText = [] ∨ g.completeText.getLast? = some '\n') ∧
      (g.setupReady = true ↔
        r.commands ≠ [] ∧ ((∃ r ∈ rs, r.kind = .setupReady) ∨ hasHeader g.rawText = true)) ∧
      (g.setupReady = false → e.player = (s.run (ms.filter fun m => m.record?.isNone)).player) ∧
      (g.setupReady = true →
        e.player.Holds r ∧ e.player.streaming = true ∧
          e.player.resets = s.player.resets + 1) := by
  intro e rs g r
  have hopening := h.opening_run hms hsource hrecords
  have hreceived := hopening.ingestor.receiving.received
  have hread : r = readFull (receivedText rs) := hreceived.readScript_completeText
  obtain ⟨htext, hlines⟩ := hreceived.completeText
  have hraw : g.rawText = receivedText rs := hreceived.rawText
  refine ⟨hraw, hraw.trans htext, ?_, ?_, ?_, ?_, ?_⟩
  · rw [hreceived.lineBuffer]
    exact Text.not_mem_lastLine _
  · refine Text.getLast?_of_lastLine_eq_nil ?_
    rw [Text.lastLine, hlines, List.getLastD_concat]
  · rw [hread, hraw]
    exact hopening.ingestor.opens.trans ⟨fun ho => ⟨ho.command, ho.setup⟩, fun ho => ⟨ho.1, ho.2⟩⟩
  · exact fun hready => (hopening.untouched hready).player
  · intro hready
    obtain ⟨-, hstream, hstory⟩ := hopening.ingestor.receiving.story hready
    have hresets := hopening.resets
    rw [hready] at hresets
    exact ⟨hread ▸ hstory, hstream, hresets⟩

/-- A setup record comes too early to start playback, and the chunk that completes a line starts
it. -/
theorem run_opens_with_line :
    let ms : List Move :=
      [.handle ⟨.setupReady, ['L', 'O', 'C', ':']⟩, .ask .toggleAuto,
        .handle ⟨.chunk, ['b', '\n', 'H', 'i']⟩]
    (new .default).Fresh ∧ (∀ m ∈ ms, m.isPlayback = true) ∧ .giveUp ∉ ms ∧
      (∀ r ∈ ms.filterMap Move.record?, r.kind = .chunk ∨ r.kind = .setupReady) ∧
      ((new .default).run ms).ingestor.setupReady = true ∧
      ((new .default).run ms).ingestor.lineBuffer = ['H', 'i'] ∧
      ((new .default).run ms).player.store.commands = [.location ['b'] (coloursOf ['b'])] ∧
      ((new .default).run ms).player.streaming = true ∧
      ((new .default).run ms).player.resets = (new .default).player.resets + 1 := by
  intro ms
  have hfresh : (new .default).Fresh := ⟨rfl, rfl, rfl⟩
  have hms : ∀ m ∈ ms, m.isPlayback = true := by decide
  have hsource : .giveUp ∉ ms := by decide
  have hrecords : ∀ r ∈ ms.filterMap Move.record?, r.kind = .chunk ∨ r.kind = .setupReady := by
    decide
  have hready : ((new .default).run ms).ingestor.setupReady = true := by decide +kernel
  have hbuffer : ((new .default).run ms).ingestor.lineBuffer = ['H', 'i'] := by decide +kernel
  have hread : (readScript ((new .default).run ms).ingestor.completeText Scene.empty).commands =
      [.location ['b'] (coloursOf ['b'])] := by decide +kernel
  obtain ⟨-, -, -, -, -, -, hopened⟩ := run_opens hfresh hms hsource hrecords
  obtain ⟨hstory, hstream, hresets⟩ := hopened hready
  exact ⟨hfresh, hms, hsource, hrecords, hready, hbuffer, hstory.commands.trans hread, hstream,
    hresets⟩

end Playback

end StoryPlayer
