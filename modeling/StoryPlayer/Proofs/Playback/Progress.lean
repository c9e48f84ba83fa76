import StoryPlayer.Proofs.Playback.Awake
import StoryPlayer.Proofs.Player.Delays

/-!
# Playback never stalls

A player that only plays what an ingestor has loaded is awake, and more than that: when it waits for
more, it is on the last command of a story that still streams in.

Everything but the last is kept by each request. Lines that are added take a player that waits for
more off the end, and the request that follows takes it on, so that part is restored by the end of
every list of requests.
-/

namespace StoryPlayer

namespace Player

/-- Something is under way wherever the player cannot wait for input. -/
structure Lively (p : Player) (ts : List Ticket) : Prop extends p.Steady ts where
  playing : p.phase = .playing → ∃ t ∈ ts, t.session = p.session
  awaiting : p.phase = .awaitingInput → p.streaming = true ∨ p.autoMode = true → p.timer ≠ none
  inBounds : p.store.InBounds
  loaded : p.streaming = true → p.store.size ≠ 0

/-- Besides, a player that waits for more is at the end of what has streamed in. -/
structure Settled (p : Player) (ts : List Ticket) : Prop extends p.Lively ts where
  atEnd : p.phase = .waitingForMore → p.streaming = true ∧ p.store.advance? = none

section

variable {p : Player} {ts : List Ticket}

theorem Lively.stirs (h : p.Lively ts) : p.Stirs ts :=
  ⟨h.toSteady, h.playing, h.awaiting, h.inBounds⟩

theorem Stirs.lively (h : p.Stirs ts) (hloaded : p.streaming = true → p.store.size ≠ 0) :
    p.Lively ts :=
  ⟨h.toSteady, h.playing, h.awaiting, h.inBounds, hloaded⟩

theorem Settled.of_phase (h : p.Steady ts) (hplaying : p.phase ≠ .playing)
    (hawaiting : p.phase ≠ .awaitingInput) (hwaiting : p.phase ≠ .waitingForMore)
    (hbounds : p.store.InBounds) (hloaded : p.streaming = true → p.store.size ≠ 0) :
    p.Settled ts where
  toLively := (Stirs.of_phase h hplaying hawaiting hbounds).lively hloaded
  atEnd hphase := absurd hphase hwaiting

theorem Settled.perm {us : List Ticket} (h : p.Settled ts) (hperm : ts.Perm us) :
    p.Settled us where
  toLively := (h.stirs.perm hperm).lively h.loaded
  atEnd := h.atEnd

theorem SameStory.size {q : Player} (h : p.SameStory q) : q.store.size = p.store.size :=
  congrArg List.length h.commands

/-- Playing keeps something under way, and waits for more only at the end. -/
theorem Turn.settled {c : Trigger} {w : Waiting} (h : p.Turn c w) (hc : c.isPlayback = true)
    (hp : p.Settled (c.ticket?.toList ++ ts)) : w.1.Settled (ts ++ w.2.toList) := by
  have hcall := Trigger.isCall_of_isPlayback hc
  have hsame := h.sameStory hc
  refine ⟨(h.stirs hcall hp.stirs).lively fun hstream => ?_, fun hphase => ?_⟩
  · rw [hsame.size]
    exact hp.loaded (hsame.streaming.symm.trans hstream)
  · rcases h.atEnd hcall with hend | ⟨hstays, hstream, hcursor⟩
    · exact hend hphase
    · -- A player that stays where it waited has nothing before it still.
      obtain ⟨hon, hlast⟩ := hp.atEnd (hstays.symm.trans hphase)
      rw [Store.advance?_eq_none_iff] at hlast ⊢
      rw [hsame.size, hcursor]
      exact ⟨hstream.trans hon, hlast⟩

/-! ## What an ingestor keeps -/

theorem Lively.streamEnds (h : p.Lively ts) : (p.setStreaming false).Lively ts :=
  h.stirs.streamEnds.lively nofun

theorem Lively.append (h : p.Lively ts) (t : Text) : (p.append t).Lively ts := by
  refine (h.stirs.append t).lively fun hstream => ?_
  have hsize := h.loaded hstream
  change (p.store.commands ++ _).length ≠ 0
  rw [List.length_append]
  exact Nat.ne_of_gt (Nat.add_pos_left (Nat.pos_of_ne_zero hsize) _)

/-- Taking up what was added leaves no player waiting for more short of the end. -/
theorem Lively.resume (h : p.Lively ts) :
    p.resume.1.Settled (ts ++ p.resume.2.toList) ∧ p.resume.1.streaming = p.streaming := by
  have hsame := p.resume_sameStory
  refine ⟨⟨h.stirs.resume.toStirs.lively fun hstream => ?_, p.resume_atEnd⟩, hsame.streaming⟩
  rw [hsame.size]
  exact h.loaded (hsame.streaming.symm.trans hstream)

/-- A story that is loaded and started is played, unless there is nothing to play. -/
theorem Steady.loadAndStart (h : p.Steady ts) (t : Text)
    (hloaded : p.streaming = true → (readScript t Scene.empty).commands ≠ []) :
    (p.load t).start.1.Settled (ts ++ (p.load t).start.2.toList) ∧
      (p.load t).start.1.streaming = p.streaming := by
  have hsame := (p.load t).start_sameStory
  refine ⟨⟨(h.load_start t).toStirs.lively fun hstream => ?_, p.load_start_atEnd t⟩,
    hsame.streaming⟩
  rw [hsame.size]
  exact fun hsize => hloaded (hsame.streaming.symm.trans hstream) (List.length_eq_zero_iff.mp hsize)

end

end Player

/-- The requests of an ingestor leave the player settled, and streaming only while the ingestor
takes records. -/
theorem Ingestor.Intake.settled {g g' : Ingestor} {rs : List Request} {a : Afterwards}
    (h : g.Intake rs g' a) {p : Player} {ts : List Ticket} (hp : p.Settled ts)
    (hopen : p.streaming = true → g.finished = false) :
    (p.askAll rs).1.Settled (ts ++ (p.askAll rs).2) ∧
      ((p.askAll rs).1.streaming = true → g'.finished = false) := by
  cases h with
  | ignore hready hfinished =>
    refine ⟨by simpa [Player.askAll] using hp, ?_⟩
    exact fun hstream => hfinished.trans (hopen hstream)
  | @begin _ t hcommands _ _ _ hopen' =>
    have hon : (p.setStreaming true).Steady ts := hp.toSteady.congr rfl rfl rfl rfl rfl rfl rfl
    obtain ⟨hsettled, -⟩ := hon.loadAndStart t fun _ => hcommands
    exact ⟨by simpa [Player.askAll, Player.ask] using hsettled, fun _ => hopen'⟩
  | extend t _ _ _ hopen' =>
    obtain ⟨hsettled, -⟩ := (hp.toLively.append t).resume
    exact ⟨by simpa [Player.askAll, Player.ask] using hsettled, fun _ => hopen'⟩
  | whole t final _ _ _ _ =>
    obtain ⟨hsettled, hstream⟩ :=
      hp.toLively.streamEnds.toSteady.loadAndStart t (by simp [Player.setStreaming])
    refine ⟨by simpa [Player.askAll, Player.ask] using hsettled, fun hon => ?_⟩
    cases hstream.symm.trans hon
  | close final _ _ _ _ hrest =>
    rcases hrest with rfl | ⟨t, rfl⟩
    · obtain ⟨hsettled, hstream⟩ := hp.toLively.streamEnds.resume
      refine ⟨by simpa [Player.askAll, Player.ask] using hsettled, fun hon => ?_⟩
      cases hstream.symm.trans hon
    · obtain ⟨hsettled, hstream⟩ := (hp.toLively.streamEnds.append t).resume
      refine ⟨by simpa [Player.askAll, Player.ask] using hsettled, fun hon => ?_⟩
      cases hstream.symm.trans hon
  | fail a =>
    obtain ⟨hsettled, hstream⟩ := hp.toLively.streamEnds.resume
    refine ⟨by simpa [Player.askAll, Player.ask] using hsettled, fun hon => ?_⟩
    cases hstream.symm.trans hon

namespace Playback

/-- The player is settled, and streaming only while the ingestor takes records. -/
structure Settled (s : Playback) : Prop where
  player : s.player.Settled s.tickets
  streaming : s.player.streaming = true → s.ingestor.finished = false

theorem Settled.steady {s : Playback} (h : s.Settled) : s.Steady :=
  ⟨h.player.toSteady⟩

theorem new_settled (s : Settings) : (new s).Settled where
  player := .of_phase (new_steady s).player nofun nofun nofun (.inr rfl) nofun
  streaming := nofun

theorem leave_settled {s : Playback} {w : Waiting} {a : Afterwards}
    (hplayer : w.1.Settled (s.tickets ++ w.2.toList))
    (hopen : w.1.streaming = true → s.ingestor.finished = false) : (s.leave w a).Settled where
  player := by simpa using hplayer
  streaming := by simpa using hopen

/-- The story streams on as before where nothing but playing is asked for. -/
theorem Settled.turn {s : Playback} (h : s.Settled) {c : Trigger} {w : Waiting}
    (hturn : s.player.Turn c w) (hc : c.isPlayback = true) :
    w.1.streaming = true → s.ingestor.finished = false := by
  intro hstream
  exact h.streaming ((hturn.sameStory hc).streaming.symm.trans hstream)

theorem step_settled {s : Playback} (h : s.Settled) {m : Move} (hm : m.isPlayback = true) :
    (s.step m).Settled := by
  cases m with
  | ask r =>
    have hturn := s.player.ask_turn r
    exact leave_settled (hturn.settled hm h.player) (h.turn hturn hm)
  | handle r =>
    obtain ⟨rs, hintake, hasked⟩ := s.ingestor.handle_takes s.player r
    obtain ⟨hplayer, hopen⟩ := hintake.settled h.player h.streaming
    rw [hasked] at hplayer hopen
    exact leave_settled hplayer hopen
  | giveUp =>
    have hintake : s.ingestor.Intake _ _ .nothing := .fail .nothing
    obtain ⟨hplayer, hopen⟩ := hintake.settled h.player h.streaming
    refine leave_settled ?_ hopen
    simpa [Player.askAll, Player.ask, tickets] using hplayer
  | complete i =>
    cases hc : s.suspended[i]? with
    | none => rwa [step_complete_of_none hc]
    | some c =>
      rw [step_complete hc]
      have hturn := s.player.rendered_turn c.ticket
      have hplayer := h.player.perm (tickets_perm hc)
      exact leave_settled (hturn.settled rfl hplayer) (h.turn hturn rfl)
  | fire i =>
    cases ht : s.tasks[i]? with
    | none => rwa [step_fire_of_none ht]
    | some t =>
      have hturn := Player.wake_turn (h.steady.timer_of_task ht)
      rw [step_fire ht]
      exact leave_settled (hturn.settled t.trigger_isPlayback (by simpa using h.player))
        (h.turn hturn t.trigger_isPlayback)

/-- Playing never stalls where input is ignored, unless a delay cannot be waited for: at every moment
a render of the present session is under way while a command is rendered, a reveal is alive while it
is typed, and while the player waits for input that it need not wait for, it holds a timer that goes
on. That is alive if its delay can be waited for, and under settings whose delays can be waited for
it always is. A player that waits for more does so on the last command, and only as long as the
ingestor takes records. -/
theorem run_never_stalls (settings : Settings) (ms : List Move)
    (hms : ∀ m ∈ ms, m.isPlayback = true) :
    let s := (new settings).run ms
    (s.player.phase = .playing → ∃ c ∈ s.suspended, c.ticket.session = s.player.session) ∧
      (s.player.phase = .typing →
        ∃ t ∈ s.tasks, t.session = s.player.session ∧ s.player.Reveals t) ∧
      (s.player.phase = .awaitingInput → s.player.streaming = true ∨ s.player.autoMode = true →
        ∃ t delay, s.player.timer = some t ∧ t.session = s.player.session ∧ t.job = .goOn delay ∧
          (millisCountable delay = true → t ∈ s.tasks) ∧
          (settings.IsPaced → millisCountable delay = true ∧ t ∈ s.tasks)) ∧
      (s.player.phase = .waitingForMore →
        s.player.streaming = true ∧ s.ingestor.finished = false ∧
          s.player.store.cursor + 1 = s.player.store.size) := by
  intro s
  have h : s.Settled :=
    run_keeps Settled (fun m => m.isPlayback = true) (fun _ _ hm hs => step_settled hs hm) _
      (new_settled settings) ms hms
  have halive {t : Timer} (ht : s.player.timer = some t) (hcan : t.canWait = true) :
      t ∈ s.tasks := by
    unfold tasks
    rw [h.player.tasks.alive t ht hcan]
    exact List.mem_singleton_self t
  refine ⟨?_, ?_, ?_, ?_⟩
  · intro hphase
    obtain ⟨t, ht, hsession⟩ := h.player.playing hphase
    obtain ⟨c, hc, rfl⟩ := List.mem_map.mp ht
    exact ⟨c, hc, hsession⟩
  · intro hphase
    obtain ⟨t, ht, hsession, hreveals⟩ := h.player.fits.reveals hphase
    exact ⟨t, halive ht hreveals.canWait, hsession, hreveals⟩
  · intro hphase hmode
    obtain ⟨t, ht⟩ := Option.ne_none_iff_exists'.mp (h.player.awaiting hphase hmode)
    obtain ⟨hsession, delay, hjob⟩ := h.player.fits.goesOn hphase ht
    have hcan : t.canWait = millisCountable delay := by rw [Timer.canWait, hjob]
    refine ⟨t, delay, ht, hsession, hjob, fun hdelay => halive ht (hcan.trans hdelay), ?_⟩
    intro hpaced
    have hwaits := ((new_steady settings).run_keepsTime hpaced.keepsTime ms).canWait ht
    exact ⟨hcan.symm.trans hwaits, halive ht hwaits⟩
  · intro hphase
    obtain ⟨hstream, hlast⟩ := h.player.atEnd hphase
    have hcursor := Store.cursor_eq_last h.player.inBounds (h.player.loaded hstream) hlast
    exact ⟨hstream, h.streaming hstream, hcursor⟩

/-- A stream that pauses behind its first line keeps the player waiting on it. -/
theorem run_waits_for_more :
    let ms : List Move :=
      [.handle ⟨.chunk, ['A', '\n']⟩, .handle ⟨.setupReady, []⟩, .complete 0, .fire 0, .fire 0]
    let s := (new .default).run ms
    (∀ m ∈ ms, m.isPlayback = true) ∧ s.player.phase = .waitingForMore ∧
      s.player.streaming = true ∧ s.ingestor.finished = false ∧
      s.player.store.cursor + 1 = s.player.store.size := by
  intro ms
  have hms : ∀ m ∈ ms, m.isPlayback = true := by decide
  have hphase : ((new .default).run ms).player.phase = .waitingForMore := by decide +kernel
  exact ⟨hms, hphase, (run_never_stalls .default ms hms).2.2.2 hphase⟩

/-- In front of a delay that cannot be waited for the player stalls while the story streams in: no
render is under way, and the timer that should take it on has failed. -/
theorem run_stalls :
    let settings : Settings :=
      { Settings.default with locationAdvance := Int.ofNat (Nat.pow 10 400) }
    let ms : List Move :=
      [.handle ⟨.chunk, ['L', 'O', 'C', ':', ' ', 'a', '\n', 'B', ':', ' ', 'c', '\n']⟩,
        .handle ⟨.setupReady, []⟩, .complete 0, .fire 0]
    let s := (new settings).run ms
    (∀ m ∈ ms, m.isPlayback = true) ∧ s.player.phase = .awaitingInput ∧
      s.player.streaming = true ∧ s.suspended.length = 0 ∧ s.tasks = [] := by
  intro settings ms s
  refine ⟨by decide, ?_, ?_, ?_, ?_⟩ <;> decide +kernel

end Playback

end StoryPlayer
